import CameraCentral.Camera.Subscription

/-!
# What subscribing writes, and counts

Which writes switch a camera on is settled by its database: there is one for each characteristic of
the camera service that can push its value and has a client configuration (`Peer.subscriptions`).
The host's answers have no part in it, they are only counted.  `Peer.yields_subscribeAll_iff` says
that subscribing has exactly these branches, one for each way to answer the writes, and what it
counts in each of them.
-/

namespace CameraCentral

namespace Properties

/-- A value with these properties can be pushed, in one way or in both. -/
def Pushes (properties : Properties) : Prop :=
  properties.Contains notify ∨ properties.Contains indicate

instance (properties : Properties) : Decidable properties.Pushes :=
  inferInstanceAs (Decidable (_ ∨ _))

/-- What switches on every way in which a value can be pushed: a word with a bit for each, low byte
first. -/
def configuration (properties : Properties) : Bytes :=
  [(if properties.Contains notify then 1 else 0) |||
    (if properties.Contains indicate then 2 else 0), 0]

/-- There is something to write for a value that can be pushed. -/
theorem subscription?_of_pushes {properties : Properties} (pushes : properties.Pushes) :
    ∃ bits, properties.subscription? = some bits ∧
      Bytes.ofWord bits = properties.configuration := by
  unfold subscription? configuration
  by_cases hnotify : properties.Contains notify
  · by_cases hindicate : properties.Contains indicate
    · simp only [if_pos hnotify, if_pos hindicate]
      exact ⟨_, rfl, rfl⟩
    · simp only [if_pos hnotify, if_neg hindicate]
      exact ⟨_, rfl, rfl⟩
  · have hindicate := pushes.resolve_left hnotify
    simp only [if_neg hnotify, if_pos hindicate]
    exact ⟨_, rfl, rfl⟩

/-- There is nothing to write for a value that cannot be pushed. -/
theorem subscription?_of_not_pushes {properties : Properties} (silent : ¬ properties.Pushes) :
    properties.subscription? = none := by
  obtain ⟨hnotify, hindicate⟩ := not_or.1 silent
  unfold subscription?
  rw [if_neg hnotify, if_neg hindicate]

end Properties

namespace Characteristic

/-- The write that switches a characteristic on, if it can push its value and has a client
configuration. -/
def switch? (conn : ConnHandle) (characteristic : Characteristic) : Option Request :=
  if characteristic.properties.Pushes then
    (characteristic.find? Uuid.clientConfiguration).map fun descriptor =>
      .write conn descriptor.handle characteristic.properties.configuration
  else none

/-- A characteristic can push its value, but has no client configuration to switch it on. -/
def LacksSwitch (characteristic : Characteristic) : Prop :=
  characteristic.properties.Pushes ∧ characteristic.find? Uuid.clientConfiguration = none

instance (characteristic : Characteristic) : Decidable characteristic.LacksSwitch :=
  inferInstanceAs (Decidable (_ ∧ _))

end Characteristic

/-- A count after some more characteristics, of whose writes some were taken on and some refused. -/
def SubscriptionCount.tally (count : SubscriptionCount) (characteristics : List Characteristic)
    (exchanges : List Exchange) : SubscriptionCount where
  submitted := count.submitted + exchanges.countP (·.answer = .accepted)
  missing := count.missing + characteristics.countP (·.LacksSwitch)
  failed := count.failed + exchanges.countP (·.answer ≠ .accepted)

/-- What is counted from the beginning. -/
theorem SubscriptionCount.tally_empty (characteristics : List Characteristic)
    (exchanges : List Exchange) :
    SubscriptionCount.tally {} characteristics exchanges = {
      submitted := exchanges.countP (·.answer = .accepted)
      missing := characteristics.countP (·.LacksSwitch)
      failed := exchanges.countP (·.answer ≠ .accepted) } := by
  simp only [tally, Nat.zero_add]

theorem SubscriptionCount.tally_cons (count : SubscriptionCount) (characteristic : Characteristic)
    (characteristics : List Characteristic) (exchanges exchanges' : List Exchange) :
    (count.tally [characteristic] exchanges).tally characteristics exchanges' =
      count.tally (characteristic :: characteristics) (exchanges ++ exchanges') := by
  have hmissing : [characteristic].countP (·.LacksSwitch) + characteristics.countP (·.LacksSwitch) =
      (characteristic :: characteristics).countP (·.LacksSwitch) := by
    rw [← List.countP_append, List.singleton_append]
  simp only [tally, List.countP_append, Nat.add_assoc, hmissing]

namespace Peer

variable {peer : Peer} {count count' : SubscriptionCount} {characteristic : Characteristic}
  {exchanges : List Exchange}

/-- The characteristics of the first camera service. -/
def cameraCharacteristics (peer : Peer) : List Characteristic :=
  ((peer.findService? Uuid.cameraService).map (·.characteristics)).getD []

/-- The writes that switch a camera on. -/
def subscriptions (peer : Peer) : List Request :=
  peer.cameraCharacteristics.filterMap (·.switch? peer.conn)

/-- Where nothing is written nothing is counted but what lacks its switch. -/
theorem yields_done_tally_iff {characteristics : List Characteristic} {value : SubscriptionCount}
    (h : value = count.tally characteristics []) :
    (Dialogue.done value).Yields exchanges count' ↔
      exchanges.map (·.request) = [] ∧ count' = count.tally characteristics exchanges := by
  rw [Dialogue.yields_done_iff, List.map_eq_nil_iff, h]
  refine and_congr_right ?_
  rintro rfl
  rfl

/-- Subscribing to one characteristic makes the write that switches it on, if there is one, and
counts the answer. -/
theorem yields_subscribe_iff :
    (peer.subscribe count characteristic).Yields exchanges count' ↔
      exchanges.map (·.request) = (characteristic.switch? peer.conn).toList ∧
        count' = count.tally [characteristic] exchanges := by
  unfold subscribe Characteristic.switch?
  by_cases pushes : characteristic.properties.Pushes
  case neg =>
    rw [Properties.subscription?_of_not_pushes pushes, if_neg pushes]
    exact yields_done_tally_iff
      (by simp [SubscriptionCount.tally, Characteristic.LacksSwitch, pushes])
  obtain ⟨bits, hbits, hdata⟩ := Properties.subscription?_of_pushes pushes
  rw [hbits, if_pos pushes]
  cases hfind : characteristic.find? Uuid.clientConfiguration with
  | none =>
    exact yields_done_tally_iff
      (by simp [SubscriptionCount.tally, Characteristic.LacksSwitch, pushes, hfind])
  | some descriptor =>
    have haccepted : count.tally [characteristic] [⟨.write peer.conn descriptor.handle
        (Bytes.ofWord bits), .accepted⟩] = { count with submitted := count.submitted + 1 } := by
      simp [SubscriptionCount.tally, Characteristic.LacksSwitch, hfind]
    have hrefused : ∀ why, count.tally [characteristic] [⟨.write peer.conn descriptor.handle
        (Bytes.ofWord bits), .refused why⟩] = { count with failed := count.failed + 1 } := by
      intro why
      simp [SubscriptionCount.tally, Characteristic.LacksSwitch, hfind]
    rw [Dialogue.yields_ask_iff, Option.map_some, Option.toList_some, ← hdata]
    constructor
    · rintro ⟨answer, rest, rfl, hrest⟩
      cases answer with
      | accepted =>
        obtain ⟨rfl, rfl⟩ := Dialogue.yields_done_iff.1 hrest
        exact ⟨rfl, haccepted.symm⟩
      | refused why =>
        obtain ⟨rfl, rfl⟩ := Dialogue.yields_done_iff.1 hrest
        exact ⟨rfl, (hrefused why).symm⟩
    · rintro ⟨hrequests, rfl⟩
      obtain ⟨⟨request, answer⟩, rest, rfl, rfl, hrest⟩ := List.map_eq_cons_iff.1 hrequests
      obtain rfl := List.map_eq_nil_iff.1 hrest
      refine ⟨answer, [], rfl, ?_⟩
      cases answer with
      | accepted =>
        rw [haccepted]
        exact .done _
      | refused why =>
        rw [hrefused]
        exact .done _

/-- Subscribing to characteristics one after the other makes their writes in order, whatever is
answered, and counts the answers. -/
theorem yields_foldlM_subscribe_iff {characteristics : List Characteristic} :
    (characteristics.foldlM peer.subscribe count).Yields exchanges count' ↔
      exchanges.map (·.request) = characteristics.filterMap (·.switch? peer.conn) ∧
        count' = count.tally characteristics exchanges := by
  induction characteristics generalizing count exchanges with
  | nil => exact yields_done_tally_iff rfl
  | cons characteristic rest ih =>
    have hwrites : (characteristic :: rest).filterMap (·.switch? peer.conn) =
        (characteristic.switch? peer.conn).toList ++ rest.filterMap (·.switch? peer.conn) := by
      cases hswitch : characteristic.switch? peer.conn <;> simp [hswitch]
    rw [List.foldlM_cons, Dialogue.yields_bind_iff, hwrites]
    simp only [yields_subscribe_iff, ih]
    constructor
    · rintro ⟨first, second, middle, rfl, ⟨hfirst, rfl⟩, hsecond, rfl⟩
      exact ⟨by rw [List.map_append, hfirst, hsecond], SubscriptionCount.tally_cons ..⟩
    · rintro ⟨hrequests, rfl⟩
      obtain ⟨first, second, rfl, hfirst, hsecond⟩ := List.map_eq_append_iff.1 hrequests
      exact ⟨first, second, _, rfl, ⟨hfirst, rfl⟩, hsecond,
        (SubscriptionCount.tally_cons ..).symm⟩

/-- **Subscribing makes the writes that switch the camera on**, in every way to answer them, and
counts the answers. -/
theorem yields_subscribeAll_iff :
    peer.subscribeAll.Yields exchanges count ↔
      exchanges.map (·.request) = peer.subscriptions ∧
        count = SubscriptionCount.tally {} peer.cameraCharacteristics exchanges := by
  unfold subscribeAll subscriptions cameraCharacteristics
  cases peer.findService? Uuid.cameraService with
  | none => exact yields_done_tally_iff rfl
  | some service => exact yields_foldlM_subscribe_iff

/-- Subscribing makes no other requests than writes to the peer's connection. -/
theorem subscribeAll_request (h : peer.subscribeAll.Yields exchanges count) :
    ∀ x ∈ exchanges, ∃ handle data, x.request = .write peer.conn handle data := by
  intro x hx
  have hrequest : x.request ∈ peer.subscriptions := by
    rw [← (yields_subscribeAll_iff.1 h).1]
    exact List.mem_map_of_mem hx
  obtain ⟨c, -, hswitch⟩ := List.mem_filterMap.1 hrequest
  unfold Characteristic.switch? at hswitch
  split at hswitch
  · obtain ⟨d, -, hwrite⟩ := Option.map_eq_some_iff.1 hswitch
    exact ⟨d.handle, _, hwrite.symm⟩
  · cases hswitch

/-- Every characteristic that can push its value is switched on, or lacks the switch. -/
theorem length_subscriptions (peer : Peer) :
    peer.subscriptions.length + peer.cameraCharacteristics.countP (·.LacksSwitch) =
      peer.cameraCharacteristics.countP (·.properties.Pushes) := by
  unfold subscriptions
  induction peer.cameraCharacteristics with
  | nil => rfl
  | cons c rest ih =>
    rw [List.filterMap_cons, List.countP_cons, List.countP_cons, ← ih]
    by_cases pushes : c.properties.Pushes
    · cases hfind : c.find? Uuid.clientConfiguration with
      | none =>
        simp [Characteristic.switch?, Characteristic.LacksSwitch, pushes, hfind, Nat.add_assoc]
      | some d =>
        simp [Characteristic.switch?, Characteristic.LacksSwitch, pushes, hfind,
          Nat.add_right_comm]
    · simp [Characteristic.switch?, Characteristic.LacksSwitch, pushes]

end Peer

end CameraCentral
