import CameraCentral.Proofs.Peer.Distinct
import CameraCentral.Proofs.Peer.Limits
import CameraCentral.Proofs.Peer.Record

/-!
# Handles in their places

The tables of a database are filled by hand and by walks, and nobody checks them when they are read.
What a reader relies on is `Peer.Sound`: the range of a service is not reversed, a characteristic
lies within its service, and the cursor of a walk, which is kept apart from the tables, points to
entries that are there.  Every call keeps this, whatever a peer reports and whatever the host says
(`Run.sound`).

Part of the reason is that no call stops halfway.  A call that edits an entry of the registry makes
one change, as `Call.Changes` has it, or makes none (`Step.edits`).
-/

namespace CameraCentral

/-- The range of a service is not reversed, and its characteristics lie within it. -/
structure Service.Placed (service : Service) : Prop where
  ordered : service.first ≤ service.last
  contains : ∀ c ∈ service.characteristics,
    service.Contains c.declaration ∧ service.Contains c.value

/-- The cursor of a walk points to a service, or to a characteristic, that is there. -/
def Progress.PointsInto (services : List Service) : Progress → Prop
  | .characteristics i => ∃ service, services[i]? = some service
  | .descriptors i j =>
    ∃ service c, services[i]? = some service ∧ service.characteristics[j]? = some c
  | .notStarted | .services | .complete | .failed => True

/-- The database of a peer is in order, and so is the cursor of its walk. -/
structure Peer.Sound (peer : Peer) : Prop where
  placed : ∀ service ∈ peer.services, service.Placed
  cursor : peer.progress.PointsInto peer.services

/-- The peers of a registry are in order. -/
def Registry.Sound (registry : Registry) : Prop := ∀ peer ∈ registry.peers, peer.Sound

/-! ## Cursors -/

/-- Where one entry of a table is replaced, an index of the table is still one, of the same entry or
of the one that was replaced. -/
theorem getElem?_replace {α : Type} {before after : List α} {a a' : α} {i : Nat} {x : α}
    (h : (before ++ a :: after)[i]? = some x) :
    (before ++ a' :: after)[i]? = some x ∨
      x = a ∧ (before ++ a' :: after)[i]? = some a' := by
  rcases Nat.lt_trichotomy i before.length with hlt | rfl | hgt
  · rw [List.getElem?_append_left hlt] at h ⊢
    exact .inl h
  · rw [List.getElem?_append_right (Nat.le_refl _), Nat.sub_self] at h ⊢
    exact .inr ⟨(Option.some.inj h).symm, rfl⟩
  · rw [List.getElem?_append_right (Nat.le_of_lt hgt)] at h ⊢
    obtain ⟨k, hk⟩ := Nat.exists_eq_succ_of_ne_zero (Nat.sub_ne_zero_of_lt hgt)
    rw [hk, List.getElem?_cons_succ] at h ⊢
    exact .inl h

/-- A cursor stays where it is when every service stays at its index and loses no characteristic. -/
theorem Progress.PointsInto.mono {progress : Progress}
    {services services' : List Service} (points : progress.PointsInto services)
    (kept : ∀ (i : Nat) (service : Service), services[i]? = some service →
      ∃ service' : Service, services'[i]? = some service' ∧
        service.characteristics.length ≤ service'.characteristics.length) :
    progress.PointsInto services' := by
  cases progress with
  | notStarted | services | complete | failed => trivial
  | characteristics i =>
    obtain ⟨service, hservice⟩ := points
    obtain ⟨service', hservice', -⟩ := kept i service hservice
    exact ⟨service', hservice'⟩
  | descriptors i j =>
    obtain ⟨service, c, hservice, hc⟩ := points
    obtain ⟨service', hservice', hlength⟩ := kept i service hservice
    have hj := (List.getElem?_eq_some_iff.1 hc).1
    exact ⟨service', _, hservice', List.getElem?_eq_getElem (Nat.lt_of_lt_of_le hj hlength)⟩

namespace Peer

variable {peer peer' : Peer} {entry finding : Finding} {exchanges : List Exchange}
  {outcome : Option Outcome}

/-! ## Entries -/

/-- An entry that was filed keeps the database in order. -/
theorem Gains.placed (gains : peer.Gains entry peer')
    (placed : ∀ service ∈ peer.services, service.Placed) :
    ∀ service ∈ peer'.services, service.Placed := by
  cases gains with
  | service decl ordered room =>
    intro service hservice
    rcases List.mem_append.1 hservice with hservice | hservice
    · exact placed service hservice
    · obtain rfl := List.mem_singleton.1 hservice
      exact ⟨ordered, by simp⟩
  | characteristic decl before service after split passed contains room =>
    rw [split] at placed
    simp only [List.forall_mem_append, List.forall_mem_cons] at placed ⊢
    obtain ⟨hbefore, hservice, hafter⟩ := placed
    refine ⟨hbefore, ⟨hservice.ordered, ?_⟩, hafter⟩
    intro c hc
    rcases List.mem_append.1 hc with hc | hc
    · exact hservice.contains c hc
    · obtain rfl := List.mem_singleton.1 hc
      exact contains
  | descriptor value d before service after split passed first c rest split' passed' found room =>
    rw [split] at placed
    simp only [List.forall_mem_append, List.forall_mem_cons] at placed ⊢
    obtain ⟨hbefore, ⟨ordered, contains⟩, hafter⟩ := placed
    rw [split'] at contains
    simp only [List.forall_mem_append, List.forall_mem_cons] at contains
    obtain ⟨hfirst, hc, hrest⟩ := contains
    refine ⟨hbefore, ⟨ordered, ?_⟩, hafter⟩
    simp only [List.forall_mem_append, List.forall_mem_cons]
    exact ⟨hfirst, hc, hrest⟩

/-- An entry that was filed leaves the others where they are: every service stays at its index and
loses no characteristic. -/
theorem Gains.kept (gains : peer.Gains entry peer') (i : Nat) (service : Service)
    (h : peer.services[i]? = some service) :
    ∃ service' : Service, peer'.services[i]? = some service' ∧
      service.characteristics.length ≤ service'.characteristics.length := by
  cases gains with
  | service decl ordered room =>
    have hi := (List.getElem?_eq_some_iff.1 h).1
    exact ⟨service, (List.getElem?_append_left hi).trans h, Nat.le_refl _⟩
  | characteristic decl before old after split passed contains room =>
    rw [split] at h
    rcases getElem?_replace h with hkept | ⟨rfl, hnew⟩
    · exact ⟨service, hkept, Nat.le_refl _⟩
    · exact ⟨_, hnew, by simp [Service.withCharacteristic]⟩
  | descriptor value d before old after split passed first c rest split' passed' found room =>
    rw [split] at h
    rcases getElem?_replace h with hkept | ⟨rfl, hnew⟩
    · exact ⟨service, hkept, Nat.le_refl _⟩
    · exact ⟨_, hnew, by simp [split']⟩

/-- An entry that was filed keeps the peer in order. -/
theorem Gains.sound (gains : peer.Gains entry peer') (sound : peer.Sound) : peer'.Sound := by
  have hprogress : peer'.progress = peer.progress := by cases gains <;> rfl
  refine ⟨gains.placed sound.placed, ?_⟩
  rw [hprogress]
  exact sound.cursor.mono gains.kept

/-! ## Walks -/

/-- A service that has room for characteristics is there. -/
theorem pointsInto_of_mem_spans {span : Span} (hspan : span ∈ peer.spans) :
    (Progress.characteristics span.service).PointsInto peer.services := by
  obtain ⟨⟨service, i⟩, hmem, hentry⟩ := List.mem_filterMap.1 hspan
  simp only [Option.ite_none_right_eq_some, Option.some.injEq] at hentry
  obtain ⟨-, rfl⟩ := hentry
  exact ⟨service, List.mk_mem_zipIdx_iff_getElem?.1 hmem⟩

/-- A characteristic that has room for descriptors is there. -/
theorem pointsInto_of_mem_slots {slot : Slot} (hslot : slot ∈ peer.slots) :
    (Progress.descriptors slot.service slot.characteristic).PointsInto peer.services := by
  obtain ⟨⟨service, i⟩, hservice, hslot⟩ := List.mem_flatMap.1 hslot
  obtain ⟨⟨c, j⟩, hc, hentry⟩ := List.mem_filterMap.1 hslot
  simp only [Option.ite_none_right_eq_some, Option.some.injEq] at hentry
  obtain ⟨-, rfl⟩ := hentry
  exact ⟨service, c, List.mk_mem_zipIdx_iff_getElem?.1 hservice,
    List.mk_mem_zipIdx_iff_getElem?.1 hc⟩

/-- Asking on leaves a cursor behind that points to what was asked about. -/
theorem AskStep.pointsInto (step : AskStep peer exchanges peer' outcome) :
    peer'.progress.PointsInto peer'.services := by
  cases step with
  | characteristics span hspan => exact pointsInto_of_mem_spans hspan
  | descriptors slot hslot => exact pointsInto_of_mem_slots hslot
  | characteristicsRefused | descriptorsRefused | complete => trivial

/-- A finding keeps the peer in order. -/
theorem WalkStep.sound (walk : peer.WalkStep finding exchanges peer' outcome)
    (sound : peer.Sound) : peer'.Sound := by
  cases walk with
  | unexpected _ => exact sound
  | filed _ entry _ h => exact ((gains_iff entry).1 h).sound sound
  | unfiled _ _ _ _ | broken _ _ _ _ => exact ⟨sound.placed, trivial⟩
  | goesOn _ _ _ _ _ step => exact ⟨step.services_eq ▸ sound.placed, step.pointsInto⟩

end Peer

namespace Registry

variable {registry registry' : Registry} {call : Call} {exchanges : List Exchange}
  {response : Response} {conn : ConnHandle}

/-! ## Runs -/

/-- A peer that is found is in order. -/
theorem Sound.of_find? (sound : registry.Sound) {peer : Peer}
    (known : registry.find? conn = some peer) : peer.Sound :=
  sound peer (List.mem_of_find?_eq_some known)

/-- A turn keeps the registry in order. -/
theorem Step.sound (step : Step registry call exchanges registry' response)
    (sound : registry.Sound) : registry'.Sound :=
  step.forall_peers (fun _ _ => ⟨by simp, trivial⟩) (fun gains => gains.sound)
    (fun _ => ⟨⟨by simp, trivial⟩, ⟨by simp, trivial⟩⟩) (fun walk => walk.sound) sound

/-- **A registry that began empty is in order.** -/
theorem Run.sound {history : List Turn} (run : Run {} history registry) : registry.Sound := by
  induction run with
  | nil => exact fun peer hpeer => absurd hpeer (by simp)
  | concat run turn next ih =>
    rw [← next] at ih
    exact turn.step.sound ih

/-! ## Edits -/

/-- The connection whose entry is edited by a call. -/
def Call.edits? : Call → Option ConnHandle
  | add conn _ | delete conn => some conn
  | addService conn _ | addCharacteristic conn _ | addDescriptor conn _ _ => some conn
  | discoverAll _ | event _ => none

/-- The one change that a call makes if it goes through: what the registry has of the connection
before, and after. -/
inductive Call.Changes : Call → Option Peer → Option Peer → Prop
  | added (conn : ConnHandle) (address : Address) :
    Changes (.add conn address) none (some { conn, address })
  | deleted (conn : ConnHandle) (peer : Peer) : Changes (.delete conn) (some peer) none
  | filed {call : Call} {conn : ConnHandle} {entry : Finding}
      (h : call.entry? = some (conn, entry)) (peer peer' : Peer) (gains : peer.Gains entry peer')
      (seen : peer.Seen peer' entry) : Changes call (some peer) (some peer')

/-- A look-up after a peer was put into its place. -/
theorem find?_put_eq_update {peer peer' : Peer} (known : registry.find? conn = some peer)
    (same : peer'.conn = peer.conn) :
    (registry.put peer').find? = Function.update registry.find? conn (some peer') := by
  funext other
  by_cases h : other = conn
  · rw [h, Function.update_self, find?_put_of_known known same]
  · rw [Function.update_of_ne h, find?_put_of_known_of_ne known same h]

/-- **An edit is made as a whole or not at all.** -/
theorem Step.edits (step : Step registry call exchanges registry' response)
    (hcall : call.edits? = some conn) :
    (∃ why, response = .result (.error why) ∧ registry' = registry) ∨
      response = .result (.ok ()) ∧ ∃ new, call.Changes (registry.find? conn) new ∧
        registry'.find? = Function.update registry.find? conn new := by
  have hentry : ∀ {conn' entry}, call.entry? = some (conn', entry) → conn' = conn := by
    intro conn' entry h
    cases call with
    | addService | addCharacteristic | addDescriptor => cases h; exact Option.some.inj hcall
    | add | delete | discoverAll | event => cases h
  cases step with
  | added conn' address registry' h =>
    obtain rfl : conn' = conn := Option.some.inj hcall
    refine .inr ⟨rfl, some { conn := conn', address := address }, ?_, ?_⟩
    · rw [(add_eq_ok_iff.1 h).1]
      exact .added conn' address
    · funext other
      rw [find?_of_add h, Function.update_apply]
  | deleted conn' peer known =>
    obtain rfl : conn' = conn := Option.some.inj hcall
    refine .inr ⟨rfl, none, known ▸ .deleted conn' peer, ?_⟩
    funext other
    rw [find?_erase, Function.update_apply]
  | filed h peer peer' known fits =>
    obtain rfl := hentry h
    have gains := (Peer.gains_iff (Call.status?_of_entry? h)).1 fits
    have same : peer'.conn = peer.conn := by rw [Peer.file_eq_ok fits]
    exact .inr ⟨rfl, some peer', known ▸ .filed h peer peer' gains gains.seen,
      find?_put_eq_update known same⟩
  | unadded _ _ why _ | unfiled _ _ _ why _ => exact .inl ⟨why, rfl, rfl⟩
  | undeleted | unfilable => exact .inl ⟨_, rfl, rfl⟩
  | walkStarted | walkRefused | walkRunning | walkUnknown | walked | ignored => cases hcall

/-- **Edits are made as a whole or not at all, and handles stay in their places.**  A registry that
began empty is in order: no range of a service is reversed, every characteristic lies within its
service, and the cursor of every walk points to an entry that is there.  A call that edits an entry
of such a registry is refused and leaves the registry as it is, or it goes through and then the
look-ups see the one change that it makes and no other.  This does not depend on how the gap is
closed where a peer was dropped. -/
theorem Run.edits_whole_or_not {history : List Turn} (run : Run {} history registry) :
    registry.Sound ∧
    (∀ (turn : Turn) (conn : ConnHandle), turn.before = registry → turn.call.edits? = some conn →
      (∃ why, turn.response = .result (.error why) ∧ turn.after = registry) ∨
        turn.response = .result (.ok ()) ∧ ∃ new, turn.call.Changes (registry.find? conn) new ∧
          turn.after.find? = Function.update registry.find? conn new) ∧
    ∀ conn, (registry.swapErase conn).find? = (registry.erase conn).find? := by
  refine ⟨run.sound, ?_, fun conn => funext (run.distinct.1.find?_swapErase conn)⟩
  rintro turn conn rfl hcall
  exact turn.step.edits hcall

/-- Two peers are connected.  The walk of the second has come to the second characteristic of the
camera service. -/
def inspected : List (Call × Script) :=
  [.add 4 (.ofBytes .publicDevice 6 5 4 3 2 1), .add 5 (.ofBytes .publicDevice 1 2 3 4 5 6),
    .discoverAll 5, .event (.discovery 5 (.service ⟨Uuid.cameraService, 10, 20⟩)),
    .event (.discovery 5 (.servicesDone .success)),
    .event (.discovery 5 (.characteristic ⟨Uuid.command, 11, 12, ⟨Properties.write⟩⟩)),
    .event (.discovery 5 (.characteristic ⟨Uuid.commandResponse, 13, 14, ⟨Properties.notify⟩⟩)),
    .event (.discovery 5 (.characteristicsDone .success))].map (·, {})

/-- In the middle of a walk a descriptor is filed by hand, and seen.  A characteristic that lies
within no service is refused. -/
theorem edits_whole_or_not_inspected :
    let registry := after {} inspected
    let filed := Turn.against Script.reply {} registry
      (.addDescriptor 5 14 ⟨Uuid.clientConfiguration, 15⟩)
    let refused := Turn.against Script.reply {} registry
      (.addCharacteristic 5 ⟨Uuid.command, 19, 21, ⟨Properties.write⟩⟩)
    (∃ peer, registry.find? 5 = some peer ∧ peer.progress = .descriptors 0 1 ∧ peer.Sound) ∧
      (∃ new, filed.call.Changes (registry.find? 5) new ∧
        filed.after.find? = Function.update registry.find? 5 new) ∧
      refused.after = registry := by
  intro registry filed refused
  obtain ⟨sound, edits, -⟩ := Run.edits_whole_or_not (run_playback {} inspected)
  obtain ⟨peer, known, walking⟩ :
      ∃ peer, registry.find? 5 = some peer ∧ peer.progress = .descriptors 0 1 := ⟨_, rfl, rfl⟩
  refine ⟨⟨peer, known, walking, sound.of_find? known⟩, ?_, ?_⟩
  · rcases edits filed 5 rfl rfl with ⟨why, hrefused, -⟩ | ⟨-, hchanged⟩
    · have hresponse : filed.response = .result (.ok ()) := rfl
      rw [hresponse] at hrefused
      cases hrefused
    · exact hchanged
  · rcases edits refused 5 rfl rfl with ⟨why, -, hsame⟩ | ⟨hdone, -⟩
    · exact hsame
    · have hresponse : refused.response = .result (.error (.handleOutOfRange 19)) := rfl
      rw [hresponse] at hdone
      cases hdone

end Registry

end CameraCentral
