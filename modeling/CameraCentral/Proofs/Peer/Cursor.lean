import CameraCentral.Peer.Walk

/-!
# The cursor of a walk

A walk goes to the first service, or the first characteristic, with room at or behind the place that
it has reached.  Here the two searches are unfolded one entry at a time: the entry at the place
itself is taken if it has room, and otherwise the search goes on behind it.

The tables are split at the place, so the laws speak about `before ++ entry :: after`, with the
place given by the length of `before`.
-/

namespace CameraCentral

namespace Peer

/-- A search that begins in the middle of a list finds what stands there. -/
theorem find?_append_of_split {α : Type} {p : α → Prop} [DecidablePred p] {early late : List α}
    (hearly : ∀ a ∈ early, ¬ p a) (hlate : ∀ a ∈ late, p a) :
    (early ++ late).find? (fun a => p a) = late.head? := by
  have hfilter : (early ++ late).filter (fun a => p a) = late := by
    rw [List.filter_append, List.filter_eq_nil_iff.2 (by simpa using hearly),
      List.filter_eq_self.2 (by simpa using hlate), List.nil_append]
  rw [← List.head?_filter, hfilter]

variable {peer : Peer} {before after : List Service} {service : Service}

/-! ## Services -/

/-- The span of a numbered service, if it has room. -/
def spanOf? (entry : Service × Nat) : Option Span :=
  if entry.1.first < entry.1.last then some ⟨entry.2, entry.1.first, entry.1.last⟩ else none

/-- The spans of services that are numbered from `n` on. -/
def spansFrom (n : Nat) (services : List Service) : List Span :=
  (services.zipIdx n).filterMap spanOf?

/-- Spans carry the numbers of their services. -/
theorem service_of_mem_spansFrom {n : Nat} {services : List Service} {span : Span}
    (h : span ∈ spansFrom n services) :
    n ≤ span.service ∧ span.service < n + services.length := by
  obtain ⟨⟨service, i⟩, hmem, hspan⟩ := List.mem_filterMap.1 h
  have hlower := List.le_snd_of_mem_zipIdx hmem
  have hupper := List.snd_lt_of_mem_zipIdx hmem
  simp only [spanOf?, Option.ite_none_right_eq_some, Option.some.injEq] at hspan
  obtain ⟨-, rfl⟩ := hspan
  simp only at hlower hupper ⊢
  omega

/-- The search for a service only looks at the services from its place on. -/
theorem nextSpan?_append (h : peer.services = before ++ after) :
    peer.nextSpan? before.length = (spansFrom before.length after).head? := by
  have hspans : peer.spans = spansFrom 0 before ++ spansFrom before.length after := by
    change peer.services.zipIdx.filterMap spanOf? = _
    rw [h, List.zipIdx_append, List.filterMap_append, Nat.zero_add]
    rfl
  unfold nextSpan?
  rw [hspans]
  refine find?_append_of_split (fun span hspan => ?_) (fun span hspan => ?_)
  · have hbounds := service_of_mem_spansFrom hspan
    omega
  · exact (service_of_mem_spansFrom hspan).1

/-- A service with room is the next one. -/
theorem nextSpan?_of_lt {i : Nat} (service : Service)
    (h : peer.services = before ++ service :: after) (hi : before.length = i)
    (room : service.first < service.last) :
    peer.nextSpan? i = some ⟨i, service.first, service.last⟩ := by
  subst hi
  rw [nextSpan?_append h, spansFrom, List.zipIdx_cons, List.filterMap_cons]
  simp [spanOf?, room]

/-- A service without room is passed over. -/
theorem nextSpan?_of_not_lt {i : Nat} (service : Service)
    (h : peer.services = before ++ service :: after) (hi : before.length = i)
    (full : ¬ service.first < service.last) : peer.nextSpan? i = peer.nextSpan? (i + 1) := by
  subst hi
  have h' : peer.services = (before ++ [service]) ++ after := by simp [h]
  have hnext := nextSpan?_append h'
  rw [List.length_append, List.length_singleton] at hnext
  rw [nextSpan?_append h, hnext, spansFrom, List.zipIdx_cons, List.filterMap_cons]
  simp [spanOf?, full, spansFrom]

/-- Behind the last service there is none. -/
theorem nextSpan?_length {i : Nat} (hi : peer.services.length = i) : peer.nextSpan? i = none := by
  subst hi
  rw [nextSpan?_append (List.append_nil _).symm]
  rfl

/-! ## Characteristics -/

/-- The slot of a numbered characteristic of the service with number `i`, if it has room. -/
def slotOf? (i : Nat) (service : Service) (entry : Characteristic × Nat) : Option Slot :=
  if entry.1.value < service.descriptorEnd entry.1.value then
    some ⟨i, entry.2, entry.1.value, service.descriptorEnd entry.1.value⟩
  else none

/-- The slots of characteristics of a service that are numbered from `n` on. -/
def slotsOf (i : Nat) (service : Service) (n : Nat) (characteristics : List Characteristic) :
    List Slot :=
  (characteristics.zipIdx n).filterMap (slotOf? i service)

/-- The slots of services that are numbered from `n` on. -/
def slotsFrom (n : Nat) (services : List Service) : List Slot :=
  (services.zipIdx n).flatMap fun entry => slotsOf entry.2 entry.1 0 entry.1.characteristics

/-- Slots carry the numbers of their services and of their characteristics. -/
theorem characteristic_of_mem_slotsOf {i n : Nat} {characteristics : List Characteristic}
    {slot : Slot} (h : slot ∈ slotsOf i service n characteristics) :
    slot.service = i ∧ n ≤ slot.characteristic ∧
      slot.characteristic < n + characteristics.length := by
  obtain ⟨⟨characteristic, j⟩, hmem, hslot⟩ := List.mem_filterMap.1 h
  have hlower := List.le_snd_of_mem_zipIdx hmem
  have hupper := List.snd_lt_of_mem_zipIdx hmem
  simp only [slotOf?, Option.ite_none_right_eq_some, Option.some.injEq] at hslot
  obtain ⟨-, rfl⟩ := hslot
  refine ⟨rfl, hlower, ?_⟩
  simp only at hupper ⊢
  omega

/-- Slots carry the numbers of their services. -/
theorem service_of_mem_slotsFrom {n : Nat} {services : List Service} {slot : Slot}
    (h : slot ∈ slotsFrom n services) :
    n ≤ slot.service ∧ slot.service < n + services.length := by
  obtain ⟨⟨service, i⟩, hmem, hslot⟩ := List.mem_flatMap.1 h
  have hlower := List.le_snd_of_mem_zipIdx hmem
  have hupper := List.snd_lt_of_mem_zipIdx hmem
  obtain ⟨hservice, -, -⟩ := characteristic_of_mem_slotsOf hslot
  simp only at hlower hupper hservice
  omega

/-- All slots of a peer are numbered from the beginning. -/
theorem slots_eq (peer : Peer) : peer.slots = slotsFrom 0 peer.services := rfl

theorem slotsFrom_append (n : Nat) (before after : List Service) :
    slotsFrom n (before ++ after) = slotsFrom n before ++ slotsFrom (n + before.length) after := by
  unfold slotsFrom
  rw [List.zipIdx_append, List.flatMap_append]

theorem slotsFrom_cons (n : Nat) (service : Service) (after : List Service) :
    slotsFrom n (service :: after) =
      slotsOf n service 0 service.characteristics ++ slotsFrom (n + 1) after := by
  unfold slotsFrom
  rw [List.zipIdx_cons, List.flatMap_cons]

theorem slotsOf_append (i : Nat) (service : Service) (n : Nat)
    (first rest : List Characteristic) :
    slotsOf i service n (first ++ rest) =
      slotsOf i service n first ++ slotsOf i service (n + first.length) rest := by
  unfold slotsOf
  rw [List.zipIdx_append, List.filterMap_append]

/-- The search for a characteristic only looks at the characteristics from its place on. -/
theorem nextSlot?_append {first rest : List Characteristic}
    (h : peer.services = before ++ service :: after)
    (hcharacteristics : service.characteristics = first ++ rest) :
    peer.nextSlot? before.length first.length =
      (slotsOf before.length service first.length rest ++
        slotsFrom (before.length + 1) after).head? := by
  have hslots : peer.slots =
      (slotsFrom 0 before ++ slotsOf before.length service 0 first) ++
        (slotsOf before.length service first.length rest ++
          slotsFrom (before.length + 1) after) := by
    rw [slots_eq, h, slotsFrom_append, slotsFrom_cons, hcharacteristics, slotsOf_append]
    simp only [Nat.zero_add, List.append_assoc]
  unfold nextSlot?
  rw [hslots]
  refine find?_append_of_split (fun slot hslot => ?_) (fun slot hslot => ?_)
  · rcases List.mem_append.1 hslot with hslot | hslot
    · have hbounds := service_of_mem_slotsFrom hslot
      omega
    · have hbounds := characteristic_of_mem_slotsOf hslot
      omega
  · rcases List.mem_append.1 hslot with hslot | hslot
    · have hbounds := characteristic_of_mem_slotsOf hslot
      omega
    · have hbounds := service_of_mem_slotsFrom hslot
      omega

/-- At the beginning of a service the search looks at that service and those behind it. -/
theorem nextSlot?_service (h : peer.services = before ++ after) :
    peer.nextSlot? before.length 0 = (slotsFrom before.length after).head? := by
  cases after with
  | nil =>
    have hslots : peer.slots = slotsFrom 0 before ++ [] := by
      rw [slots_eq, h, List.append_nil, List.append_nil]
    unfold nextSlot?
    rw [hslots]
    refine find?_append_of_split (fun slot hslot => ?_) (by simp)
    have hbounds := service_of_mem_slotsFrom hslot
    omega
  | cons service after =>
    rw [slotsFrom_cons]
    exact nextSlot?_append h (List.nil_append _).symm

section

variable {first rest : List Characteristic} {characteristic : Characteristic}

/-- A characteristic with room is the next one. -/
theorem nextSlot?_of_lt {i j : Nat} (service : Service) (characteristic : Characteristic)
    (h : peer.services = before ++ service :: after) (hi : before.length = i)
    (hsplit : service.characteristics = first ++ characteristic :: rest) (hj : first.length = j)
    (room : characteristic.value < service.descriptorEnd characteristic.value) :
    peer.nextSlot? i j =
      some ⟨i, j, characteristic.value, service.descriptorEnd characteristic.value⟩ := by
  subst hi hj
  rw [nextSlot?_append h hsplit, slotsOf, List.zipIdx_cons, List.filterMap_cons]
  simp [slotOf?, room]

/-- A characteristic without room is passed over. -/
theorem nextSlot?_of_not_lt {i j : Nat} (service : Service) (characteristic : Characteristic)
    (h : peer.services = before ++ service :: after) (hi : before.length = i)
    (hsplit : service.characteristics = first ++ characteristic :: rest) (hj : first.length = j)
    (full : ¬ characteristic.value < service.descriptorEnd characteristic.value) :
    peer.nextSlot? i j = peer.nextSlot? i (j + 1) := by
  subst hi hj
  have hsplit' : service.characteristics = (first ++ [characteristic]) ++ rest := by simp [hsplit]
  have hnext := nextSlot?_append h hsplit'
  rw [List.length_append, List.length_singleton] at hnext
  rw [nextSlot?_append h hsplit, hnext, slotsOf, List.zipIdx_cons, List.filterMap_cons]
  simp [slotOf?, full, slotsOf]

/-- Behind the last characteristic of a service the search goes on with the next service. -/
theorem nextSlot?_of_service_over {i j : Nat} (service : Service)
    (h : peer.services = before ++ service :: after) (hi : before.length = i)
    (hj : service.characteristics.length = j) :
    peer.nextSlot? i j = peer.nextSlot? (i + 1) 0 := by
  subst hi hj
  have h' : peer.services = (before ++ [service]) ++ after := by simp [h]
  have hnext := nextSlot?_service h'
  rw [List.length_append, List.length_singleton] at hnext
  rw [nextSlot?_append h (List.append_nil _).symm, hnext]
  simp [slotsOf]

/-- Behind the last service there is no characteristic. -/
theorem nextSlot?_length {i : Nat} (hi : peer.services.length = i) :
    peer.nextSlot? i 0 = none := by
  subst hi
  rw [nextSlot?_service (List.append_nil _).symm]
  rfl

end

end Peer

end CameraCentral
