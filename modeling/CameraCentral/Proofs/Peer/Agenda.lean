import CameraCentral.Proofs.Peer.Cursor
import CameraCentral.Proofs.Peer.Entries
import CameraCentral.Proofs.Peer.Filing
import CameraCentral.Proofs.Peer.History

/-!
# The agenda of a walk

Which requests a walk makes is settled by the database of the peer: first for the services, then for
the characteristics of every service that has room for one, then for the descriptors of every
characteristic that has room for one.  This list is the *agenda* of the database.

A walk does not have the list.  It finds one request at a time by a cursor, in tables that are still
filling up.  But the entries that are filed in a phase are not the ones that the cursor of the phase
looks at: characteristics do not change which services have room, and descriptors do not change
which characteristics have.  So at every moment the requests made are a first part of the agenda
(`Peer.Asked`), of the agenda as it is then and as it is at the end.  `Run.asks_agenda` says so for
every run of the registry.
-/

namespace CameraCentral

/-! ## Requests of a walk -/

/-- The request for the characteristics of a service. -/
def Span.request (conn : ConnHandle) (span : Span) : Request :=
  .discoverCharacteristics conn span.first span.last

/-- The request for the descriptors of a characteristic. -/
def Slot.request (conn : ConnHandle) (slot : Slot) : Request :=
  .discoverDescriptors conn slot.value slot.last

namespace Peer

variable {peer peer' : Peer}

/-- The requests that a walk through a database makes: one for the services, one for each service
with more than one handle, and one for each characteristic with handles between its value and the
end of its descriptors, all in the order of the tables. -/
def agenda (peer : Peer) : List Request :=
  .discoverServices peer.conn ::
    ((peer.services.filter fun service => service.first < service.last).map fun service =>
      .discoverCharacteristics peer.conn service.first service.last) ++
    peer.services.flatMap fun service =>
      (service.characteristics.filter fun characteristic =>
        characteristic.value < service.descriptorEnd characteristic.value).map fun characteristic =>
          .discoverDescriptors peer.conn characteristic.value
            (service.descriptorEnd characteristic.value)

/-- Mapping over the numbered entries that pass a test is mapping over the entries that pass it. -/
theorem map_filterMap_zipIdx {α β γ : Type} (entries : List α) (n : Nat) (p : α → Prop)
    [DecidablePred p] (number : α → Nat → β) (f : β → γ) (g : α → γ)
    (h : ∀ a i, f (number a i) = g a) :
    ((entries.zipIdx n).filterMap fun entry =>
        if p entry.1 then some (number entry.1 entry.2) else none).map f =
      (entries.filter fun a => p a).map g := by
  induction entries generalizing n with
  | nil => rfl
  | cons a entries ih =>
    rw [List.zipIdx_cons, List.filterMap_cons, List.filter_cons]
    by_cases ha : p a
    · simp [ha, h, ih (n + 1)]
    · simp [ha, ih (n + 1)]

/-- The agenda goes by the spans and the slots of the peer. -/
theorem agenda_eq (peer : Peer) :
    peer.agenda = .discoverServices peer.conn :: peer.spans.map (Span.request peer.conn) ++
      peer.slots.map (Slot.request peer.conn) := by
  have hspans : peer.spans.map (Span.request peer.conn) =
      (peer.services.filter fun service => service.first < service.last).map fun service =>
        .discoverCharacteristics peer.conn service.first service.last :=
    map_filterMap_zipIdx peer.services 0 (fun service => service.first < service.last)
      (fun service i => Span.mk i service.first service.last) _ _ fun _ _ => rfl
  have hslots : ∀ n (services : List Service),
      (slotsFrom n services).map (Slot.request peer.conn) = services.flatMap fun service =>
        (service.characteristics.filter fun characteristic =>
          characteristic.value < service.descriptorEnd characteristic.value).map
            fun characteristic => .discoverDescriptors peer.conn characteristic.value
              (service.descriptorEnd characteristic.value) := by
    intro n services
    induction services generalizing n with
    | nil => rfl
    | cons service services ih =>
      rw [slotsFrom_cons, List.map_append, List.flatMap_cons, ih (n + 1)]
      congr 1
      exact map_filterMap_zipIdx service.characteristics 0
        (fun c => c.value < service.descriptorEnd c.value)
        (fun c j => Slot.mk n j c.value (service.descriptorEnd c.value)) _ _ fun _ _ => rfl
  rw [agenda, hspans, slots_eq, hslots]

/-! ## The cursor goes through the agenda in order -/

/-- The numbers of the entries of a table grow. -/
theorem pairwise_zipIdx {α : Type} (entries : List α) (n : Nat) :
    (entries.zipIdx n).Pairwise fun entry entry' => entry.2 < entry'.2 := by
  induction entries generalizing n with
  | nil => exact .nil
  | cons a entries ih =>
    rw [List.zipIdx_cons]
    refine .cons (fun entry hentry => ?_) (ih (n + 1))
    exact List.le_snd_of_mem_zipIdx hentry

/-- Spans come in the order of their services. -/
theorem pairwise_spans (peer : Peer) :
    peer.spans.Pairwise fun span span' => span.service < span'.service := by
  refine List.pairwise_filterMap.2 ((pairwise_zipIdx peer.services 0).imp ?_)
  rintro ⟨service, i⟩ ⟨service', i'⟩ hlt span hspan span' hspan'
  simp only [Option.ite_none_right_eq_some, Option.some.injEq] at hspan hspan'
  obtain ⟨-, rfl⟩ := hspan
  obtain ⟨-, rfl⟩ := hspan'
  exact hlt

/-- Slots come in the order of their services, and within a service in the order of their
characteristics. -/
theorem pairwise_slots (peer : Peer) :
    peer.slots.Pairwise fun slot slot' => slot.service < slot'.service ∨
      slot.service = slot'.service ∧ slot.characteristic < slot'.characteristic := by
  refine List.pairwise_flatMap.2 ⟨?_, (pairwise_zipIdx peer.services 0).imp ?_⟩
  · rintro ⟨service, i⟩ -
    refine List.pairwise_filterMap.2 ((pairwise_zipIdx service.characteristics 0).imp ?_)
    rintro ⟨c, j⟩ ⟨c', j'⟩ hlt slot hslot slot' hslot'
    simp only [Option.ite_none_right_eq_some, Option.some.injEq] at hslot hslot'
    obtain ⟨-, rfl⟩ := hslot
    obtain ⟨-, rfl⟩ := hslot'
    exact .inr ⟨rfl, hlt⟩
  · rintro ⟨service, i⟩ ⟨service', i'⟩ hlt slot hslot slot' hslot'
    obtain ⟨hservice, -⟩ := characteristic_of_mem_slotsOf hslot
    obtain ⟨hservice', -⟩ := characteristic_of_mem_slotsOf hslot'
    exact .inl (by rw [hservice, hservice']; exact hlt)

section

variable {earlySpans lateSpans : List Span} {earlySlots lateSlots : List Slot}

/-- From the beginning the cursor goes to the first span. -/
theorem nextSpan?_zero (peer : Peer) : peer.nextSpan? 0 = peer.spans.head? := by
  have hnone : ∀ span ∈ ([] : List Span), ¬ 0 ≤ span.service := by simp
  exact find?_append_of_split hnone fun span _ => Nat.zero_le span.service

/-- From behind a span the cursor goes to the next one. -/
theorem nextSpan?_succ {span : Span} (h : peer.spans = earlySpans ++ span :: lateSpans) :
    peer.nextSpan? (span.service + 1) = lateSpans.head? := by
  have hsorted := peer.pairwise_spans
  rw [h, List.pairwise_append, List.pairwise_cons] at hsorted
  obtain ⟨-, ⟨hlate, -⟩, hearly⟩ := hsorted
  unfold nextSpan?
  rw [h, List.append_cons]
  refine find?_append_of_split (fun s hs => ?_) hlate
  rcases List.mem_append.1 hs with hs | hs
  · have hlt := hearly s hs span List.mem_cons_self
    omega
  · obtain rfl := List.mem_singleton.1 hs
    omega

/-- From the beginning the cursor goes to the first slot. -/
theorem nextSlot?_zero (peer : Peer) : peer.nextSlot? 0 0 = peer.slots.head? := by
  have hnone : ∀ slot ∈ ([] : List Slot),
      ¬ (0 < slot.service ∨ 0 = slot.service ∧ 0 ≤ slot.characteristic) := by simp
  exact find?_append_of_split hnone fun slot _ => by omega

/-- From behind a slot the cursor goes to the next one. -/
theorem nextSlot?_succ {slot : Slot} (h : peer.slots = earlySlots ++ slot :: lateSlots) :
    peer.nextSlot? slot.service (slot.characteristic + 1) = lateSlots.head? := by
  have hsorted := peer.pairwise_slots
  rw [h, List.pairwise_append, List.pairwise_cons] at hsorted
  obtain ⟨-, ⟨hlate, -⟩, hearly⟩ := hsorted
  unfold nextSlot?
  rw [h, List.append_cons]
  refine find?_append_of_split (fun s hs => ?_) fun s hs => ?_
  · rcases List.mem_append.1 hs with hs | hs
    · have hlt := hearly s hs slot List.mem_cons_self
      omega
    · obtain rfl := List.mem_singleton.1 hs
      omega
  · have hlt := hlate s hs
    omega

end

/-! ## What does not change while entries are filed -/

/-- The spans do not depend on the characteristics. -/
theorem spansFrom_bare (n : Nat) (services : List Service) :
    spansFrom n (services.map Service.bare) = spansFrom n services := by
  unfold spansFrom
  rw [List.zipIdx_map, List.filterMap_map]
  rfl

/-- The slots do not depend on the descriptors. -/
theorem slotsFrom_undescribed (n : Nat) (services : List Service) :
    slotsFrom n (services.map Service.undescribed) = slotsFrom n services := by
  have hslots : ∀ i (service : Service), slotsOf i service.undescribed 0
      (service.characteristics.map Characteristic.bare) =
        slotsOf i service 0 service.characteristics := by
    intro i service
    have hend : ∀ value, service.undescribed.descriptorEnd value = service.descriptorEnd value :=
      Service.descriptorEnd_congr rfl (by simp [Service.undescribed, Characteristic.bare])
    unfold slotsOf
    rw [List.zipIdx_map, List.filterMap_map]
    congr 1
    funext entry
    simp only [Function.comp_apply, slotOf?, Prod.map_fst, Prod.map_snd, hend]
    rfl
  unfold slotsFrom
  rw [List.zipIdx_map, List.flatMap_map]
  congr 1
  funext entry
  exact hslots entry.2 entry.1

/-- Entering a characteristic changes no service but in its characteristics. -/
theorem bare_enter_characteristic (services : List Service) (decl : CharacteristicDecl) :
    ((Finding.characteristic decl).enter services).map Service.bare =
      services.map Service.bare := by
  refine Table.map_amend _ _ (fun service => ?_) services
  rfl

/-- Entering a descriptor changes no characteristic but in its descriptors. -/
theorem undescribed_enter_descriptor (services : List Service) (value : AttHandle)
    (descriptor : Descriptor) :
    ((Finding.descriptor value descriptor).enter services).map Service.undescribed =
      services.map Service.undescribed := by
  refine Table.map_amend _ _ (fun service => ?_) services
  have hbare : (service.withDescriptor value descriptor).characteristics.map Characteristic.bare =
      service.characteristics.map Characteristic.bare := by
    refine Table.map_amend _ _ (fun characteristic => ?_) service.characteristics
    rfl
  unfold Service.undescribed
  rw [hbare]
  rfl

/-- Peers whose services agree but for their characteristics have the same spans. -/
theorem spans_congr (h : peer'.services.map Service.bare = peer.services.map Service.bare) :
    peer'.spans = peer.spans := by
  change spansFrom 0 peer'.services = spansFrom 0 peer.services
  rw [← spansFrom_bare, h, spansFrom_bare]

/-- Peers whose characteristics agree but for their descriptors have the same slots. -/
theorem slots_congr
    (h : peer'.services.map Service.undescribed = peer.services.map Service.undescribed) :
    peer'.slots = peer.slots := by
  rw [slots_eq, ← slotsFrom_undescribed, h, slotsFrom_undescribed, slots_eq]

/-! ## What a walk has asked for -/

/-- What a walk has asked for, at each of its places.  A walk that failed has asked for a first part
of the agenda, and one that is complete for the whole of it. -/
inductive Asked (peer : Peer) : List Request → Prop where
  | services (phase : peer.progress = .services) : Asked peer [.discoverServices peer.conn]
  | characteristics (early late : List Span) (span : Span)
      (h : peer.spans = early ++ span :: late)
      (phase : peer.progress = .characteristics span.service) :
    Asked peer (.discoverServices peer.conn :: (early ++ [span]).map (Span.request peer.conn))
  | descriptors (early late : List Slot) (slot : Slot) (h : peer.slots = early ++ slot :: late)
      (phase : peer.progress = .descriptors slot.service slot.characteristic) :
    Asked peer (.discoverServices peer.conn :: peer.spans.map (Span.request peer.conn) ++
      (early ++ [slot]).map (Slot.request peer.conn))
  | complete (phase : peer.progress = .complete) : Asked peer peer.agenda
  | failed (requests : List Request) (phase : peer.progress = .failed)
      (h : requests <+: peer.agenda) : Asked peer requests

variable {requests : List Request} {exchanges : List Exchange} {outcome : Option Outcome}

/-- What was asked for is a first part of the agenda. -/
theorem Asked.isPrefix (asked : peer.Asked requests) : requests <+: peer.agenda := by
  cases asked with
  | services phase =>
    rw [agenda_eq]
    exact ⟨_, rfl⟩
  | characteristics early late span h phase =>
    rw [agenda_eq, h]
    exact ⟨late.map (Span.request peer.conn) ++ peer.slots.map (Slot.request peer.conn), by simp⟩
  | descriptors early late slot h phase =>
    rw [agenda_eq, h]
    exact ⟨late.map (Slot.request peer.conn), by simp⟩
  | complete phase => exact List.prefix_refl _
  | failed requests phase h => exact h

/-- What was asked for in a walk that is complete is the agenda. -/
theorem Asked.eq_agenda (asked : peer.Asked requests) (complete : peer.progress = .complete) :
    requests = peer.agenda := by
  cases asked with
  | complete phase => rfl
  | services phase | characteristics _ _ _ _ phase | descriptors _ _ _ _ phase
  | failed _ phase _ =>
    rw [phase] at complete
    cases complete

/-- Asking for descriptors goes on in the agenda behind the slots that were asked about. -/
theorem asked_of_askDescriptors {early late : List Slot} {service characteristic : Nat}
    (h : peer.slots = early ++ late) (next : peer.nextSlot? service characteristic = late.head?)
    (yields : (peer.askDescriptors service characteristic).Yields exchanges (peer', outcome)) :
    peer'.Asked (.discoverServices peer.conn :: peer.spans.map (Span.request peer.conn) ++
      early.map (Slot.request peer.conn) ++ exchanges.map (·.request)) := by
  unfold askDescriptors at yields
  rw [next] at yields
  cases late with
  | nil =>
    obtain ⟨rfl, hvalue⟩ := Dialogue.yields_done_iff.1 yields
    cases hvalue
    have hagenda : peer.agenda = .discoverServices peer.conn ::
        peer.spans.map (Span.request peer.conn) ++ early.map (Slot.request peer.conn) := by
      rw [agenda_eq, h, List.append_nil]
    rw [List.map_nil, List.append_nil, ← hagenda]
    exact .complete rfl
  | cons slot late =>
    have hnext : (early ++ [slot]).map (Slot.request peer.conn) =
        early.map (Slot.request peer.conn) ++
          [.discoverDescriptors peer.conn slot.value slot.last] := by
      rw [List.map_append]
      rfl
    rcases yields.ask_cases with ⟨rest, rfl, hrest⟩ | ⟨why, rest, rfl, hrest⟩
    · obtain ⟨rfl, hvalue⟩ := Dialogue.yields_done_iff.1 hrest
      cases hvalue
      rw [List.append_assoc, List.map_singleton, ← hnext]
      exact .descriptors early late slot h rfl
    · obtain ⟨rfl, hvalue⟩ := Dialogue.yields_done_iff.1 hrest
      cases hvalue
      rw [List.append_assoc, List.map_singleton, ← hnext]
      refine .failed _ rfl ?_
      have asked : Asked { peer with progress := .descriptors slot.service slot.characteristic }
        _ := .descriptors early late slot h rfl
      exact asked.isPrefix

/-- Asking for characteristics goes on in the agenda behind the spans that were asked about. -/
theorem asked_of_askCharacteristics {early late : List Span} {service : Nat}
    (h : peer.spans = early ++ late) (next : peer.nextSpan? service = late.head?)
    (yields : (peer.askCharacteristics service).Yields exchanges (peer', outcome)) :
    peer'.Asked (.discoverServices peer.conn :: early.map (Span.request peer.conn) ++
      exchanges.map (·.request)) := by
  unfold askCharacteristics at yields
  rw [next] at yields
  cases late with
  | nil =>
    have asked := asked_of_askDescriptors (List.nil_append _).symm peer.nextSlot?_zero yields
    rw [List.append_nil] at h
    rwa [List.map_nil, List.append_nil, h] at asked
  | cons span late =>
    have hnext : (early ++ [span]).map (Span.request peer.conn) =
        early.map (Span.request peer.conn) ++
          [.discoverCharacteristics peer.conn span.first span.last] := by
      rw [List.map_append]
      rfl
    rcases yields.ask_cases with ⟨rest, rfl, hrest⟩ | ⟨why, rest, rfl, hrest⟩
    · obtain ⟨rfl, hvalue⟩ := Dialogue.yields_done_iff.1 hrest
      cases hvalue
      rw [List.map_singleton, List.cons_append, ← hnext]
      exact .characteristics early late span h rfl
    · obtain ⟨rfl, hvalue⟩ := Dialogue.yields_done_iff.1 hrest
      cases hvalue
      rw [List.map_singleton, List.cons_append, ← hnext]
      refine .failed _ rfl ?_
      have asked : Asked { peer with progress := .characteristics span.service } _ :=
        .characteristics early late span h rfl
      exact asked.isPrefix

/-- At the end of an answer the walk goes on in its agenda. -/
theorem Asked.askOn (asked : peer.Asked requests) (running : peer.progress.InFlight)
    (yields : peer.askOn.Yields exchanges (peer', outcome)) :
    peer'.Asked (requests ++ exchanges.map (·.request)) := by
  unfold Peer.askOn at yields
  cases asked with
  | services phase =>
    rw [phase] at yields
    exact asked_of_askCharacteristics (List.nil_append _).symm peer.nextSpan?_zero yields
  | characteristics early late span h phase =>
    rw [phase] at yields
    exact asked_of_askCharacteristics (by rw [h, List.append_cons]) (nextSpan?_succ h) yields
  | descriptors early late slot h phase =>
    rw [phase] at yields
    exact asked_of_askDescriptors (by rw [h, List.append_cons]) (nextSlot?_succ h) yields
  | complete phase | failed _ phase _ =>
    rw [phase] at running
    exact running.elim

/-- An entry that the walk waits for does not change what there was to ask for before it. -/
theorem Asked.filed {finding : Finding} (asked : peer.Asked requests)
    (expected : peer.progress.Expects finding) (entry : finding.status? = none)
    (h : peer.file finding = .ok peer') : peer'.Asked requests := by
  obtain ⟨-, rfl⟩ := file_eq_ok_iff.1 h
  cases asked with
  | services phase => exact .services phase
  | characteristics early late span hspans phase =>
    rw [phase] at expected
    cases finding with
    | characteristic decl =>
      have hsame : Peer.spans { peer with
          services := (Finding.characteristic decl).enter peer.services } = peer.spans :=
        spans_congr (bare_enter_characteristic peer.services decl)
      exact .characteristics early late span (hsame.trans hspans) phase
    | characteristicsDone status => cases entry
    | _ => exact expected.elim
  | descriptors early late slot hslots phase =>
    rw [phase] at expected
    cases finding with
    | descriptor value descriptor =>
      have hundescribed := undescribed_enter_descriptor peer.services value descriptor
      have hbare := congrArg (List.map Service.bare) hundescribed
      simp only [List.map_map] at hbare
      have hsame : Peer.slots { peer with
          services := (Finding.descriptor value descriptor).enter peer.services } = peer.slots :=
        slots_congr hundescribed
      have hspans : Peer.spans { peer with
          services := (Finding.descriptor value descriptor).enter peer.services } = peer.spans :=
        spans_congr hbare
      rw [← hspans]
      exact .descriptors early late slot (hsame.trans hslots) phase
    | descriptorsDone status => cases entry
    | _ => exact expected.elim
  | complete phase | failed _ phase _ =>
    rw [phase] at expected
    exact (Progress.inFlight_of_expects expected).elim

/-- **A finding takes a walk on in its agenda**, or leaves it where it is, or ends it. -/
theorem Asked.walk {finding : Finding} (asked : peer.Asked requests)
    (walk : peer.WalkStep finding exchanges peer' outcome) :
    peer'.Asked (requests ++ exchanges.map (·.request)) := by
  have hfailed : Asked { peer with progress := .failed } requests :=
    .failed requests rfl asked.isPrefix
  cases walk with
  | unexpected unexpected => rwa [List.map_nil, List.append_nil]
  | filed expected entry peer' h =>
    rw [List.map_nil, List.append_nil]
    exact asked.filed expected entry h
  | unfiled expected entry why h => rwa [List.map_nil, List.append_nil]
  | broken expected status done failed => rwa [List.map_nil, List.append_nil]
  | goesOn expected status done success yields step =>
    exact asked.askOn (Progress.inFlight_of_expects expected) yields

end Peer

namespace Registry

/-! ## Runs -/

variable {start registry : Registry} {first : Turn} {history : List Turn} {conn : ConnHandle}
  {peer : Peer} {requests : List Request}

/-- While a connection is left to its events its walk goes on in its agenda. -/
theorem Run.asked (run : Run start history registry) (known : start.find? conn = some peer)
    (left : LeftToEvents conn history) (asked : peer.Asked requests) :
    ∃ walked, registry.find? conn = some walked ∧
      walked.Asked (requests ++ requestsOf conn history) := by
  refine run.follow known left (fun past peer => peer.Asked (requests ++ requestsOf conn past))
    ?_ ?_ ?_
  · simpa [requestsOf] using asked
  · intro past turn peer hfinding hsilent asked
    rwa [requestsOf_concat, hsilent, List.append_nil]
  · intro past turn peer finding peer' outcome known hfinding hresponse hall walk hafter asked
    rw [requestsOf_concat, hall, ← List.append_assoc]
    exact asked.walk walk

/-- **A walk asks for everything, once, in order.**  Let a walk be started for a connection, and let
the connection be left to its events after that.  Then the requests made about it are a first part
of the agenda of its database as it is at the end, and if the walk is reported to be complete they
are the whole agenda. -/
theorem Run.asks_agenda (starts : first.call = .discoverAll conn)
    (known : first.before.find? conn = some peer) (halted : ¬ peer.progress.InFlight)
    (run : Run first.after history registry) (left : LeftToEvents conn history) :
    ∃ walked, registry.find? conn = some walked ∧
      requestsOf conn (first :: history) <+: walked.agenda ∧
      ((∃ turn ∈ history, turn.Reports conn .complete) →
        requestsOf conn (first :: history) = walked.agenda) := by
  obtain rfl := conn_of_find?_eq_some known
  obtain ⟨hrequests, hbegun⟩ := first.walk_begins starts known halted
  have hfirst : ∃ begun, first.after.find? peer.conn = some begun ∧
      begun.Asked (first.requestsOf peer.conn) := by
    rw [hrequests]
    rcases hbegun with ⟨-, hafter⟩ | ⟨why, -, hafter⟩
    · exact ⟨_, hafter, .services rfl⟩
    · refine ⟨_, hafter, .failed _ rfl ?_⟩
      rw [Peer.agenda_eq]
      exact ⟨_, rfl⟩
  obtain ⟨begun, hafter, hbegins⟩ := hfirst
  obtain ⟨walked, hwalked, asked⟩ := run.asked hafter left hbegins
  obtain ⟨walked', hwalked', completed⟩ := run.completed hafter left
  obtain rfl : walked' = walked := Option.some.inj (hwalked'.symm.trans hwalked)
  exact ⟨walked', hwalked, asked.isPrefix, fun reported => asked.eq_agenda (completed reported)⟩

/-! ### A walk between other events -/

/-- Two peers are connected. -/
def company : Registry where
  peers := [{ conn := 4, address := .ofBytes .publicDevice 6 5 4 3 2 1 },
    { conn := 5, address := .ofBytes .publicDevice 1 2 3 4 5 6 }]

/-- The second peer reports a service of one handle and the camera service with two
characteristics, of which the second has a descriptor.  In between, the first peer reports
something, and the second reports a descriptor out of turn. -/
def findings : List Event :=
  [.discovery 5 (.service ⟨.short 0x1801, 1, 1⟩),
    .discovery 4 (.service ⟨.short 0x1801, 1, 1⟩),
    .discovery 5 (.service ⟨Uuid.cameraService, 10, 20⟩),
    .discovery 5 (.descriptor 14 ⟨Uuid.clientConfiguration, 15⟩),
    .discovery 5 (.servicesDone .success),
    .discovery 5 (.characteristic ⟨Uuid.command, 11, 12, ⟨Properties.write⟩⟩),
    .discovery 5 (.characteristic ⟨Uuid.commandResponse, 13, 14, ⟨Properties.notify⟩⟩),
    .discovery 5 (.characteristicsDone .success),
    .discovery 5 (.descriptor 14 ⟨Uuid.clientConfiguration, 15⟩),
    .discovery 5 (.descriptorsDone .success)]

/-- The walk through the database of the second peer asks for the services, for the characteristics
of the second service, and for the descriptors of its second characteristic. -/
theorem asks_agenda_company :
    let first := Turn.against Script.reply {} company (.discoverAll 5)
    let history := playback first.after (findings.map fun event => (.event event, {}))
    (∃ turn ∈ history, turn.Reports 5 .complete) ∧ ∃ walked : Peer,
      requestsOf 5 (first :: history) = walked.agenda ∧
      walked.agenda = [.discoverServices 5, .discoverCharacteristics 5 10 20,
        .discoverDescriptors 5 14 20] := by
  intro first history
  have run : Run first.after history _ := run_playback first.after _
  have left : LeftToEvents 5 history := by decide
  have reported : ∃ turn ∈ history, turn.Reports 5 .complete := by decide
  obtain ⟨walked, hwalked, -, hwhole⟩ := Run.asks_agenda rfl rfl id run left
  have hrequests : requestsOf 5 (first :: history) = [.discoverServices 5,
      .discoverCharacteristics 5 10 20, .discoverDescriptors 5 14 20] := by decide
  exact ⟨reported, walked, hwhole reported, (hwhole reported).symm.trans hrequests⟩

end Registry

end CameraCentral
