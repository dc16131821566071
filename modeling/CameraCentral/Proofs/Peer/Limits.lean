import CameraCentral.Proofs.Peer.Gains
import CameraCentral.Proofs.Peer.History
import CameraCentral.Proofs.Peer.Subscription
import Mathlib.Algebra.Group.Action.Defs
import Mathlib.Algebra.Order.BigOperators.Group.List
import Mathlib.Algebra.Order.Group.Nat

/-!
# Tables of bounded length

Of the database of a peer no more is kept than there is room for.  `Peer.WithinLimits` says so of
all tables of a peer, and `Run.withinLimits` that no run of the registry leaves the limits, whatever
is reported or filed by hand.  So what is counted when a camera is switched on stays small as well
(`Run.subscribes_all`).

This is one of several properties of peers that are kept by every call.  All that a call can do to a
peer is to register it, to file an entry, to begin a walk, or to take a finding into the walk, and
`Step.forall_peers` says that nothing else has to be looked at.
-/

namespace CameraCentral

/-- The tables of a service are not longer than there is room for. -/
structure Service.WithinLimits (service : Service) : Prop where
  characteristics : service.characteristics.length ≤ Settings.maxCharacteristics
  descriptors : ∀ c ∈ service.characteristics, c.descriptors.length ≤ Settings.maxDescriptors

/-- The tables of a peer are not longer than there is room for. -/
structure Peer.WithinLimits (peer : Peer) : Prop where
  services : peer.services.length ≤ Settings.maxServices
  each : ∀ service ∈ peer.services, service.WithinLimits

/-- The tables of all peers are not longer than there is room for. -/
def Registry.WithinLimits (registry : Registry) : Prop :=
  ∀ peer ∈ registry.peers, peer.WithinLimits

namespace Peer

variable {peer peer' : Peer} {entry finding : Finding} {exchanges : List Exchange}
  {outcome : Option Outcome}

/-- An entry is only filed where there is room for it. -/
theorem Gains.withinLimits (gains : peer.Gains entry peer') (limits : peer.WithinLimits) :
    peer'.WithinLimits := by
  obtain ⟨services, each⟩ := limits
  have hpush : ∀ {α : Type} {table : List α} {entry : α} {limit : Nat}, table.length < limit →
      (table ++ [entry]).length ≤ limit := by
    intro α table entry limit room
    rw [List.length_append]
    exact room
  cases gains with
  | service decl ordered room =>
    refine ⟨hpush room, List.forall_mem_append.2 ⟨each, ?_⟩⟩
    exact List.forall_mem_singleton.2 ⟨Nat.zero_le _, by simp⟩
  | characteristic decl before service after split passed contains room =>
    rw [split] at services each
    simp only [List.forall_mem_append, List.forall_mem_cons] at each
    obtain ⟨hbefore, hservice, hafter⟩ := each
    refine ⟨by simpa using services, ?_⟩
    simp only [List.forall_mem_append, List.forall_mem_cons]
    refine ⟨hbefore, ⟨hpush room, List.forall_mem_append.2 ⟨hservice.descriptors, ?_⟩⟩, hafter⟩
    exact List.forall_mem_singleton.2 (Nat.zero_le _)
  | descriptor value d before service after split passed first c rest split' passed' found room =>
    rw [split] at services each
    simp only [List.forall_mem_append, List.forall_mem_cons] at each
    obtain ⟨hbefore, ⟨hlength, hdescriptors⟩, hafter⟩ := each
    rw [split'] at hlength hdescriptors
    simp only [List.forall_mem_append, List.forall_mem_cons] at hdescriptors
    obtain ⟨hfirst, -, hrest⟩ := hdescriptors
    refine ⟨by simpa using services, ?_⟩
    simp only [List.forall_mem_append, List.forall_mem_cons]
    refine ⟨hbefore, ⟨by simpa using hlength, ?_⟩, hafter⟩
    simp only [List.forall_mem_append, List.forall_mem_cons]
    exact ⟨hfirst, hpush room, hrest⟩

/-- A finding files one entry at most. -/
theorem WalkStep.withinLimits (walk : peer.WalkStep finding exchanges peer' outcome)
    (limits : peer.WithinLimits) : peer'.WithinLimits := by
  cases walk with
  | unexpected _ => exact limits
  | filed _ entry _ h => exact ((gains_iff entry).1 h).withinLimits limits
  | unfiled _ _ _ _ | broken _ _ _ _ => exact ⟨limits.services, limits.each⟩
  | goesOn _ _ _ _ _ step =>
    cases step with
    | characteristics _ _ | descriptors _ _ | characteristicsRefused _ _ _
    | descriptorsRefused _ _ _ | complete => exact ⟨limits.services, limits.each⟩

/-- A database within the limits has no more characteristics than the tables of all services have
room for. -/
theorem WithinLimits.length_characteristics_le (limits : peer.WithinLimits) :
    (peer.services.flatMap (·.characteristics)).length ≤
      Settings.maxServices * Settings.maxCharacteristics := by
  have hsum : (peer.services.flatMap (·.characteristics)).length ≤
      peer.services.length * Settings.maxCharacteristics := by
    rw [List.length_flatMap, ← smul_eq_mul,
      ← List.length_map (fun service : Service => service.characteristics.length)]
    refine List.sum_le_card_nsmul _ _ fun n hn => ?_
    obtain ⟨service, hservice, rfl⟩ := List.mem_map.1 hn
    exact (limits.each service hservice).characteristics
  exact Nat.le_trans hsum (Nat.mul_le_mul_right _ limits.services)

end Peer

namespace Registry

variable {registry registry' : Registry} {call : Call} {exchanges : List Exchange}
  {response : Response}

/-- An entry that is filed by hand is an entry. -/
theorem Call.status?_of_entry? {conn : ConnHandle} {entry : Finding}
    (h : call.entry? = some (conn, entry)) : entry.status? = none := by
  cases call with
  | addService | addCharacteristic | addDescriptor => cases h; rfl
  | add | delete | discoverAll | event => cases h

/-- **What every call keeps.**  A property of peers holds of all of them after a turn if it held of
all of them before, provided that it holds of a peer that was just registered, and that it is kept
when an entry is filed, when a walk begins or could not begin, and when a finding is taken in. -/
theorem Step.forall_peers {p : Peer → Prop}
    (step : Step registry call exchanges registry' response)
    (fresh : ∀ conn address, p { conn, address })
    (filed : ∀ {peer entry peer'}, peer.Gains entry peer' → p peer → p peer')
    (begun : ∀ {peer : Peer}, p peer → p { peer with services := [], progress := .services } ∧
      p { peer with services := [], progress := .failed })
    (walked : ∀ {peer finding exchanges peer' outcome},
      Peer.WalkStep peer finding exchanges peer' outcome → p peer → p peer')
    (all : ∀ peer ∈ registry.peers, p peer) : ∀ peer ∈ registry'.peers, p peer := by
  have hknown : ∀ {conn peer}, registry.find? conn = some peer → p peer :=
    fun known => all _ (List.mem_of_find?_eq_some known)
  have hput : ∀ {peer}, p peer → ∀ other ∈ (registry.put peer).peers, p other := by
    intro peer h other hother
    obtain ⟨old, hold, rfl⟩ := List.mem_map.1 hother
    split
    · exact h
    · exact all old hold
  cases step with
  | added conn address registry' h =>
    obtain ⟨-, -, rfl⟩ := add_eq_ok_iff.1 h
    exact List.forall_mem_append.2 ⟨all, List.forall_mem_singleton.2 (fresh conn address)⟩
  | deleted conn peer known => exact fun other hother => all other (List.mem_filter.1 hother).1
  | filed h peer peer' known fits =>
    exact hput (filed ((Peer.gains_iff (Call.status?_of_entry? h)).1 fits) (hknown known))
  | walkStarted conn peer known halted => exact hput (begun (hknown known)).1
  | walkRefused conn peer known halted why => exact hput (begun (hknown known)).2
  | walkRunning conn peer known running => exact hput (hknown known)
  | walked conn finding peer peer' known walk => exact hput (walked walk (hknown known))
  | unadded | undeleted | unfiled | unfilable | walkUnknown | ignored => exact all

/-- A turn keeps all tables within the limits. -/
theorem Step.withinLimits (step : Step registry call exchanges registry' response)
    (limits : registry.WithinLimits) : registry'.WithinLimits :=
  step.forall_peers (fun _ _ => ⟨Nat.zero_le _, by simp⟩) (fun gains => gains.withinLimits)
    (fun _ => ⟨⟨Nat.zero_le _, by simp⟩, ⟨Nat.zero_le _, by simp⟩⟩) (fun walk => walk.withinLimits)
    limits

/-- **The tables stay within their limits in every run.** -/
theorem Run.withinLimits {start : Registry} {history : List Turn}
    (run : Run start history registry) (limits : start.WithinLimits) : registry.WithinLimits := by
  induction run with
  | nil => exact limits
  | concat run turn next ih =>
    rw [← next] at ih
    exact turn.step.withinLimits ih

/-! ## Subscribing -/

/-- **Subscribing is complete, and one characteristic does not matter to another.**  To subscribe to
the camera of a registered peer is to make one write for each characteristic of its first camera
service that can push its value and has a client configuration, in the order of the table, and no
other request.  Which of the writes the host refuses does not change what is written; every way to
answer them can occur, and in each of them the answers are counted, and the characteristics that can
push their values but have no client configuration.

Each write is counted once.  No more is counted than a service has room for, so every count fits
into a byte.  Without a camera service nothing is written and nothing is counted. -/
theorem Run.subscribes_all {history : List Turn} (run : Run {} history registry) {peer : Peer}
    (hpeer : peer ∈ registry.peers) :
    (∀ exchanges count, peer.subscribeAll.Yields exchanges count ↔
      exchanges.map (·.request) = peer.subscriptions ∧ count = {
        submitted := exchanges.countP (·.answer = .accepted)
        missing := peer.cameraCharacteristics.countP (·.LacksSwitch)
        failed := exchanges.countP (·.answer ≠ .accepted) }) ∧
    (∀ exchanges count, peer.subscribeAll.Yields exchanges count →
      count.submitted + count.failed = exchanges.length ∧
        count.submitted + count.failed + count.missing =
          peer.cameraCharacteristics.countP (·.properties.Pushes) ∧
        count.submitted + count.failed + count.missing ≤ 10) ∧
    (peer.findService? Uuid.cameraService = none → ∀ exchanges count,
      peer.subscribeAll.Yields exchanges count → exchanges = [] ∧ count = {}) := by
  have branches : ∀ exchanges count, peer.subscribeAll.Yields exchanges count ↔
      exchanges.map (·.request) = peer.subscriptions ∧ count = {
        submitted := exchanges.countP (·.answer = .accepted)
        missing := peer.cameraCharacteristics.countP (·.LacksSwitch)
        failed := exchanges.countP (·.answer ≠ .accepted) } := by
    intro exchanges count
    rw [Peer.yields_subscribeAll_iff, SubscriptionCount.tally_empty]
  refine ⟨branches, fun exchanges count yields => ?_, fun absent exchanges count yields => ?_⟩
  · obtain ⟨hrequests, rfl⟩ := (branches exchanges count).1 yields
    have hwrites : exchanges.length = peer.subscriptions.length := by
      rw [← hrequests, List.length_map]
    have hanswers : exchanges.length = exchanges.countP (·.answer = .accepted) +
        exchanges.countP (·.answer ≠ .accepted) := by
      simpa using List.length_eq_countP_add_countP (fun x : Exchange => x.answer = .accepted)
    have hpushes := peer.length_subscriptions
    have hlimit : peer.cameraCharacteristics.length ≤ 10 := by
      unfold Peer.cameraCharacteristics
      cases hservice : peer.findService? Uuid.cameraService with
      | none => exact Nat.zero_le 10
      | some service =>
        have limits := run.withinLimits (by simp [WithinLimits]) peer hpeer
        exact (limits.each service (List.mem_of_find?_eq_some hservice)).characteristics
    have hsome := List.countP_le_length (p := fun c : Characteristic => c.properties.Pushes)
      (l := peer.cameraCharacteristics)
    dsimp only
    omega
  · obtain ⟨hrequests, rfl⟩ := (branches exchanges count).1 yields
    unfold Peer.subscriptions Peer.cameraCharacteristics at hrequests
    unfold Peer.cameraCharacteristics
    rw [absent] at hrequests ⊢
    obtain rfl := List.map_eq_nil_iff.1 hrequests
    exact ⟨rfl, rfl⟩

/-- Two camera services are filed by hand.  The first has a characteristic that can be notified and
indicated, with two client configurations behind another descriptor; one that can be notified, but
lacks its switch; one that can only be written; and one that can be indicated. -/
def switchboard : List (Call × Script) :=
  [.add 5 (.ofBytes .publicDevice 1 2 3 4 5 6), .addService 5 ⟨Uuid.cameraService, 10, 29⟩,
    .addCharacteristic 5 ⟨Uuid.commandResponse, 11, 12, ⟨0x30⟩⟩,
    .addCharacteristic 5 ⟨Uuid.commandResponse, 16, 17, ⟨Properties.notify⟩⟩,
    .addCharacteristic 5 ⟨Uuid.command, 18, 19, ⟨Properties.write⟩⟩,
    .addCharacteristic 5 ⟨Uuid.commandResponse, 21, 22, ⟨Properties.indicate⟩⟩,
    .addDescriptor 5 12 ⟨.short 0x2901, 13⟩, .addDescriptor 5 12 ⟨Uuid.clientConfiguration, 14⟩,
    .addDescriptor 5 12 ⟨Uuid.clientConfiguration, 15⟩,
    .addDescriptor 5 19 ⟨Uuid.clientConfiguration, 20⟩,
    .addDescriptor 5 22 ⟨Uuid.clientConfiguration, 23⟩,
    .addService 5 ⟨Uuid.cameraService, 30, 39⟩,
    .addCharacteristic 5 ⟨Uuid.commandResponse, 31, 32, ⟨Properties.notify⟩⟩,
    .addDescriptor 5 32 ⟨Uuid.clientConfiguration, 33⟩].map (·, {})

/-- Two writes are made.  The host refuses the first, and the second is made nevertheless. -/
theorem subscribes_all_switchboard :
    ∃ peer ∈ (after {} switchboard).peers,
      peer.subscribeAll.Yields [⟨.write 5 14 [3, 0], .refused .busy⟩,
        ⟨.write 5 23 [2, 0], .accepted⟩] { submitted := 1, missing := 1, failed := 1 } := by
  have known : ∃ peer, (after {} switchboard).find? 5 = some peer ∧
      peer.subscriptions = [.write 5 14 [3, 0], .write 5 23 [2, 0]] ∧
      peer.cameraCharacteristics.countP (·.LacksSwitch) = 1 := ⟨_, rfl, by decide, by decide⟩
  obtain ⟨peer, hpeer, hwrites, hmissing⟩ := known
  have hmem : peer ∈ (after {} switchboard).peers := List.mem_of_find?_eq_some hpeer
  obtain ⟨branches, -, -⟩ := (run_playback {} switchboard).subscribes_all hmem
  refine ⟨peer, hmem, (branches _ _).2 ⟨hwrites.symm, ?_⟩⟩
  rw [hmissing]
  rfl

end Registry

end CameraCentral
