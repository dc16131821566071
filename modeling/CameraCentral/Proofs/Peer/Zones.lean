import CameraCentral.Proofs.Gatt.Database
import CameraCentral.Proofs.Peer.Agenda
import CameraCentral.Proofs.Peer.Placement
import Mathlib.Order.Bounds.Defs

/-!
# Where descriptors are looked for

The descriptors of a characteristic are looked for behind its value, up to the handle before the
next declaration or to the end of the service.  What is next is a matter of handles and not of the
table, whose entries come in the order in which a peer reports them.

In a service whose characteristics lie apart every handle has its zone (`Service.Zone`).  It lies
before all declarations, or it belongs to the characteristic that was declared last before it
(`Service.Owns`), and then it lies between the declaration and the value or in the room for
descriptors.  So the requests for the descriptors of a service split its handles among them: no
handle is asked about twice, and none is left out that could hold a descriptor.
-/

namespace CameraCentral

namespace Service

variable {service : Service} {c c' : Characteristic} {value handle : AttHandle} {j j' : Nat}

/-! ## The end of the descriptors -/

/-- The next declaration behind a handle, if there is one. -/
def nextDeclaration? (service : Service) (value : AttHandle) : Option AttHandle :=
  ((service.characteristics.map (·.declaration)).filter (value < ·)).min?

/-- The handles of a service up to which nothing is declared behind a value. -/
def Undeclared (service : Service) (value bound : AttHandle) : Prop :=
  bound ≤ service.last ∧
    ∀ c ∈ service.characteristics, ¬ (value < c.declaration ∧ c.declaration ≤ bound)

/-- The handle before the next declaration is one less than it, for the next declaration is not
zero. -/
theorem toNat_descriptorEnd {next : AttHandle} (h : service.nextDeclaration? value = some next) :
    (service.descriptorEnd value).toNat + 1 = next.toNat := by
  have hend : service.descriptorEnd value = next - 1 := by
    unfold nextDeclaration? at h
    unfold descriptorEnd
    rw [h]
  have hlt : value < next := by
    obtain ⟨hnext, -⟩ := List.min?_eq_some_iff.1 h
    exact of_decide_eq_true (List.mem_filter.1 hnext).2
  have hpos : (1 : AttHandle) ≤ next := by grind
  rw [hend, UInt16.toNat_sub_of_le _ _ hpos]
  exact Nat.sub_add_cancel (UInt16.le_iff_toNat_le.1 hpos)

/-- A service whose characteristics lie within it has no declaration behind its end. -/
theorem Placed.declaration_le_last (placed : service.Placed) :
    ∀ c ∈ service.characteristics, c.declaration ≤ service.last :=
  fun c hc => (placed.contains c hc).1.2

/-- Nothing is declared up to the handles that can hold a descriptor, and no others. -/
theorem undeclared_iff (placed : service.Placed) {bound : AttHandle} :
    service.Undeclared value bound ↔ bound ≤ service.descriptorEnd value := by
  rw [le_descriptorEnd_iff placed.declaration_le_last]
  refine and_congr_right fun _ => forall₂_congr fun c _ => ?_
  rw [not_and, UInt16.not_le]

/-- The descriptors of a characteristic end within the service. -/
theorem contains_descriptorEnd (placed : service.Placed) (hc : c ∈ service.characteristics) :
    service.Contains (service.descriptorEnd c.value) := by
  obtain ⟨-, hfirst, hlast⟩ := placed.contains c hc
  have hend : c.value ≤ service.descriptorEnd c.value :=
    (le_descriptorEnd_iff placed.declaration_le_last _ _).2 ⟨hlast, fun _ _ hlt => hlt⟩
  exact ⟨UInt16.le_trans hfirst hend, ((undeclared_iff placed).2 (UInt16.le_refl _)).1⟩

/-! ## Zones -/

/-- The zones of a service: the handles before the first declaration, those from the declaration of
a characteristic to its value, and those behind the value that can hold its descriptors. -/
inductive Zone where
  | preamble
  | entry (index : Nat)
  | room (index : Nat)
deriving DecidableEq, Repr

/-- A handle lies in a zone of a service. -/
def Zone.Holds (service : Service) (handle : AttHandle) : Zone → Prop
  | preamble => ∀ c ∈ service.characteristics, handle < c.declaration
  | entry index => ∃ c, service.characteristics[index]? = some c ∧
      c.declaration ≤ handle ∧ handle ≤ c.value
  | room index => ∃ c, service.characteristics[index]? = some c ∧
      c.value < handle ∧ handle ≤ service.descriptorEnd c.value

/-- The characteristics of a service lie apart, each with its value behind its declaration, in any
order. -/
structure Apart (service : Service) : Prop where
  ordered : ∀ c ∈ service.characteristics, c.declaration ≤ c.value
  disjoint : service.characteristics.Pairwise fun c c' =>
    c.value < c'.declaration ∨ c'.value < c.declaration

/-- A characteristic owns a handle that lies between its declaration and its value, or where its
descriptors can be. -/
def Owns (service : Service) (c : Characteristic) (handle : AttHandle) : Prop :=
  c.declaration ≤ handle ∧ (handle ≤ c.value ∨ handle ≤ service.descriptorEnd c.value)

/-- A characteristic owns no handle from the declaration of one behind it on. -/
theorem Owns.lt_declaration (owns : service.Owns c handle) (placed : service.Placed)
    (hc' : c' ∈ service.characteristics) (hlt : c.value < c'.declaration) :
    handle < c'.declaration := by
  rcases owns.2 with hvalue | hend
  · exact UInt16.lt_of_le_of_lt hvalue hlt
  · exact ((le_descriptorEnd_iff placed.declaration_le_last _ _).1 hend).2 c' hc' hlt

/-- A handle has one owner. -/
theorem Apart.index_eq (apart : service.Apart) (placed : service.Placed)
    (hc : service.characteristics[j]? = some c) (hc' : service.characteristics[j']? = some c')
    (owns : service.Owns c handle) (owns' : service.Owns c' handle) : j = j' := by
  -- Of two owners one would lie behind the other, and own handles from its declaration on.
  have hnot : ∀ {d d' : Characteristic}, d' ∈ service.characteristics → service.Owns d handle →
      service.Owns d' handle → ¬ d.value < d'.declaration := by
    intro d d' hd' owns owns' hlt
    exact UInt16.not_lt.2 owns'.1 (owns.lt_declaration placed hd' hlt)
  have hmem := List.mem_of_getElem? hc
  have hmem' := List.mem_of_getElem? hc'
  obtain ⟨hj, rfl⟩ := List.getElem?_eq_some_iff.1 hc
  obtain ⟨hj', rfl⟩ := List.getElem?_eq_some_iff.1 hc'
  have hdisjoint := List.pairwise_iff_getElem.1 apart.disjoint
  rcases Nat.lt_trichotomy j j' with hlt | heq | hgt
  · rcases hdisjoint j j' hj hj' hlt with h | h
    · exact absurd h (hnot hmem' owns owns')
    · exact absurd h (hnot hmem owns' owns)
  · exact heq
  · rcases hdisjoint j' j hj' hj hgt with h | h
    · exact absurd h (hnot hmem owns' owns)
    · exact absurd h (hnot hmem' owns owns')

/-- A handle that is not before all declarations belongs to the characteristic that was declared
last before it. -/
theorem Apart.exists_owner (apart : service.Apart) (placed : service.Placed)
    (contains : service.Contains handle) (declared : ¬ Zone.preamble.Holds service handle) :
    ∃ (j : Nat) (c : Characteristic), service.characteristics[j]? = some c ∧
      service.Owns c handle := by
  have hmem : ∀ n, n ∈ (service.characteristics.filter (·.declaration ≤ handle)).map
      (·.declaration.toNat) ↔
        ∃ c, (c ∈ service.characteristics ∧ c.declaration ≤ handle) ∧ c.declaration.toNat = n := by
    intro n
    simp only [List.mem_map, List.mem_filter, decide_eq_true_eq]
  cases hmax : ((service.characteristics.filter (·.declaration ≤ handle)).map
      (·.declaration.toNat)).max? with
  | none =>
    rw [List.max?_eq_none_iff] at hmax
    refine absurd (fun c hc => UInt16.not_le.1 fun hle => ?_) declared
    have hn := (hmem c.declaration.toNat).2 ⟨c, ⟨hc, hle⟩, rfl⟩
    rw [hmax] at hn
    cases hn
  | some n =>
    obtain ⟨hn, hgreatest⟩ := List.max?_eq_some_iff.1 hmax
    obtain ⟨c, ⟨hc, hle⟩, rfl⟩ := (hmem n).1 hn
    obtain ⟨j, hj⟩ := List.mem_iff_getElem?.1 hc
    refine ⟨j, c, hj, hle, .inr ?_⟩
    refine (le_descriptorEnd_iff placed.declaration_le_last _ _).2 ⟨contains.2, ?_⟩
    intro c' hc' hlt
    refine UInt16.not_le.1 fun hle' => ?_
    have hbehind := hgreatest _ ((hmem c'.declaration.toNat).2 ⟨c', ⟨hc', hle'⟩, rfl⟩)
    have hordered := apart.ordered c hc
    rw [← UInt16.le_iff_toNat_le] at hbehind
    grind

/-- The zone of a handle is that of its owner's on the side of the value on which it lies. -/
theorem Apart.holds_iff (apart : service.Apart) (placed : service.Placed)
    (hc : service.characteristics[j]? = some c) (owns : service.Owns c handle) {zone : Zone} :
    zone.Holds service handle ↔ zone = if handle ≤ c.value then .entry j else .room j := by
  constructor
  · intro holds
    cases zone with
    | preamble =>
      exact absurd (holds c (List.mem_of_getElem? hc)) (UInt16.not_lt.2 owns.1)
    | entry j' =>
      obtain ⟨c', hc', hdeclaration, hvalue⟩ := holds
      obtain rfl := apart.index_eq placed hc' hc ⟨hdeclaration, .inl hvalue⟩ owns
      obtain rfl := Option.some.inj (hc'.symm.trans hc)
      rw [if_pos hvalue]
    | room j' =>
      obtain ⟨c', hc', hvalue, hend⟩ := holds
      have hordered := apart.ordered c' (List.mem_of_getElem? hc')
      have owns' : service.Owns c' handle :=
        ⟨UInt16.le_trans hordered (UInt16.le_of_lt hvalue), .inr hend⟩
      obtain rfl := apart.index_eq placed hc' hc owns' owns
      obtain rfl := Option.some.inj (hc'.symm.trans hc)
      rw [if_neg (UInt16.not_le.2 hvalue)]
  · rintro rfl
    split
    · rename_i hvalue
      exact ⟨c, hc, owns.1, hvalue⟩
    · rename_i hvalue
      exact ⟨c, hc, UInt16.not_le.1 hvalue, owns.2.resolve_left hvalue⟩

/-- **Every handle of a service lies in one zone.** -/
theorem Apart.existsUnique_zone (apart : service.Apart) (placed : service.Placed)
    (contains : service.Contains handle) : ∃! zone : Zone, zone.Holds service handle := by
  by_cases before : Zone.preamble.Holds service handle
  · refine ⟨.preamble, before, fun zone holds => ?_⟩
    cases zone with
    | preamble => rfl
    | entry j =>
      obtain ⟨c, hc, hdeclaration, -⟩ := holds
      exact absurd (before c (List.mem_of_getElem? hc)) (UInt16.not_lt.2 hdeclaration)
    | room j =>
      obtain ⟨c, hc, hvalue, -⟩ := holds
      have hbefore := before c (List.mem_of_getElem? hc)
      have hordered := apart.ordered c (List.mem_of_getElem? hc)
      grind
  · obtain ⟨j, c, hc, owns⟩ := apart.exists_owner placed contains before
    exact ⟨_, (apart.holds_iff placed hc owns).2 rfl,
      fun zone holds => (apart.holds_iff placed hc owns).1 holds⟩

/-! ## Requests -/

/-- The requests for the descriptors of a service, one for each characteristic with room for
descriptors. -/
def descriptorRequests (conn : ConnHandle) (service : Service) : List Request :=
  (service.characteristics.filter fun c => c.value < service.descriptorEnd c.value).map fun c =>
    .discoverDescriptors conn c.value (service.descriptorEnd c.value)

end Service

/-- A handle is asked about by a request for descriptors. -/
def Request.AsksAbout (handle : AttHandle) : Request → Prop
  | .discoverDescriptors _ value last => value < handle ∧ handle ≤ last
  | _ => False

namespace Service

variable {service : Service} {handle : AttHandle} {conn : ConnHandle}

/-- No handle is asked about twice. -/
theorem Apart.pairwise_descriptorRequests (apart : service.Apart) (placed : service.Placed) :
    (service.descriptorRequests conn).Pairwise fun request request' =>
      ∀ handle, ¬ (request.AsksAbout handle ∧ request'.AsksAbout handle) := by
  refine List.pairwise_map.2 (List.Pairwise.filter _ ?_)
  refine apart.disjoint.imp_of_mem fun {c c'} hc hc' disjoint => ?_
  rintro handle ⟨⟨hvalue, hend⟩, hvalue', hend'⟩
  rw [le_descriptorEnd_iff placed.declaration_le_last] at hend hend'
  have hordered := apart.ordered c hc
  have hordered' := apart.ordered c' hc'
  rcases disjoint with hlt | hlt
  · have hnext := hend.2 c' hc' hlt
    grind
  · have hnext := hend'.2 c hc hlt
    grind

/-- A handle in the room of a characteristic is asked about. -/
theorem exists_descriptorRequest {j : Nat} (holds : (Zone.room j).Holds service handle) :
    ∃ request ∈ service.descriptorRequests conn, request.AsksAbout handle := by
  obtain ⟨c, hc, hvalue, hend⟩ := holds
  refine ⟨_, List.mem_map.2 ⟨c, List.mem_filter.2 ⟨List.mem_of_getElem? hc, ?_⟩, rfl⟩, hvalue, hend⟩
  exact decide_eq_true (UInt16.lt_of_lt_of_le hvalue hend)

end Service

/-- The requests for descriptors that are on the agenda of a walk are those of the services. -/
theorem Peer.descriptorRequests_agenda (peer : Peer) :
    peer.agenda.filter (·.kind = .discoverDescriptors) =
      peer.services.flatMap (·.descriptorRequests peer.conn) := by
  have hslots : ∀ request ∈ peer.services.flatMap (·.descriptorRequests peer.conn),
      request.kind = .discoverDescriptors := by
    intro request hrequest
    obtain ⟨service, -, hrequest⟩ := List.mem_flatMap.1 hrequest
    obtain ⟨c, -, rfl⟩ := List.mem_map.1 hrequest
    rfl
  have hagenda : peer.agenda = .discoverServices peer.conn ::
      ((peer.services.filter fun service => service.first < service.last).map fun service =>
        .discoverCharacteristics peer.conn service.first service.last) ++
      peer.services.flatMap (·.descriptorRequests peer.conn) := rfl
  have hspans : ∀ request ∈ .discoverServices peer.conn ::
      (peer.services.filter fun service => service.first < service.last).map fun service =>
        Request.discoverCharacteristics peer.conn service.first service.last,
      ¬ request.kind = .discoverDescriptors := by
    intro request hrequest
    rcases List.mem_cons.1 hrequest with rfl | hrequest
    · intro hkind
      cases hkind
    · obtain ⟨service, -, rfl⟩ := List.mem_map.1 hrequest
      intro hkind
      cases hkind
  rw [hagenda, List.filter_append, List.filter_eq_self.2 fun request hrequest =>
    decide_eq_true (hslots request hrequest), List.filter_eq_nil_iff.2 fun request hrequest => ?_]
  · rfl
  · simpa using hspans request hrequest

namespace Registry

/-- **The requests for descriptors split a service.**  The requests for descriptors that a walk
makes are those of the services, one after the other.  For every service of a registry that began
empty the descriptors of a characteristic end at a handle of the service, the last one up to which
nothing is declared behind the value of the characteristic; if something is declared behind it, that
is one handle less than the next declaration.

If the characteristics of the service lie apart, in any order, every handle of the service lies in
one zone: before the first declaration, between the declaration and the value of one characteristic,
or in the room for the descriptors of one characteristic.  Then no handle is asked about in two
requests of the service, and every handle that can be that of a descriptor is asked about. -/
theorem Run.descriptors_split {history : List Turn} {registry : Registry}
    (run : Run {} history registry) {peer : Peer} (hpeer : peer ∈ registry.peers) :
    peer.agenda.filter (·.kind = .discoverDescriptors) =
      peer.services.flatMap (·.descriptorRequests peer.conn) ∧
    ∀ service ∈ peer.services,
      (∀ c ∈ service.characteristics,
        (∀ next, service.nextDeclaration? c.value = some next →
          (service.descriptorEnd c.value).toNat + 1 = next.toNat) ∧
        service.Contains (service.descriptorEnd c.value) ∧
        IsGreatest {bound | service.Undeclared c.value bound} (service.descriptorEnd c.value)) ∧
      (service.Apart →
        (∀ handle, service.Contains handle → ∃! zone : Service.Zone, zone.Holds service handle) ∧
        (service.descriptorRequests peer.conn).Pairwise (fun request request' =>
          ∀ handle, ¬ (request.AsksAbout handle ∧ request'.AsksAbout handle)) ∧
        ∀ handle, service.Contains handle → ¬ Service.Zone.preamble.Holds service handle →
          (∀ j, ¬ (Service.Zone.entry j).Holds service handle) →
          ∃ request ∈ service.descriptorRequests peer.conn, request.AsksAbout handle) := by
  refine ⟨peer.descriptorRequests_agenda, fun service hservice => ?_⟩
  have placed := (run.sound peer hpeer).placed service hservice
  refine ⟨fun c hc => ⟨fun next => Service.toNat_descriptorEnd, ?_, ?_, ?_⟩, fun apart => ?_⟩
  · exact Service.contains_descriptorEnd placed hc
  · exact (Service.undeclared_iff placed).2 (UInt16.le_refl _)
  · exact fun bound hbound => (Service.undeclared_iff placed).1 hbound
  · refine ⟨fun handle => apart.existsUnique_zone placed,
      apart.pairwise_descriptorRequests placed, ?_⟩
    intro handle contains behind unoccupied
    obtain ⟨zone, holds, -⟩ := apart.existsUnique_zone placed contains
    cases zone with
    | preamble => exact absurd holds behind
    | entry j => exact absurd holds (unoccupied j)
    | room j => exact Service.exists_descriptorRequest holds

/-- A service up to the last handle there is, whose characteristics are reported out of order: the
first of them has its value at the last handle, and the other two lie side by side. -/
def unordered : Service where
  uuid := Uuid.cameraService
  first := 10
  last := 0xFFFF
  characteristics := [⟨⟨Uuid.commandResponse, 0xFFFE, 0xFFFF, ⟨Properties.notify⟩⟩, []⟩,
    ⟨⟨Uuid.command, 14, 16, ⟨Properties.write⟩⟩, []⟩,
    ⟨⟨Uuid.command, 12, 13, ⟨Properties.write⟩⟩, []⟩]

/-- The service is filed by hand. -/
def unorderedCalls : List (Call × Script) :=
  (.add 5 (.ofBytes .publicDevice 1 2 3 4 5 6) :: .addService 5 unordered.toServiceDecl ::
    unordered.characteristics.map fun c => .addCharacteristic 5 c.toCharacteristicDecl).map (·, {})

/-- There is one request for the descriptors of the service.  It covers all that lies between the
characteristics. -/
theorem descriptors_split_unordered :
    let peer : Peer := ⟨5, .ofBytes .publicDevice 1 2 3 4 5 6, [unordered], .notStarted⟩
    peer ∈ (after {} unorderedCalls).peers ∧ unordered.Apart ∧
      unordered.descriptorRequests 5 = [.discoverDescriptors 5 16 0xFFFD] ∧
      IsGreatest {bound | unordered.Undeclared 16 bound} 0xFFFD ∧
      ∃! zone : Service.Zone, zone.Holds unordered 0xFFFD := by
  intro peer
  have hpeer : peer ∈ (after {} unorderedCalls).peers := by decide
  have apart : unordered.Apart := ⟨by decide, by decide⟩
  obtain ⟨-, hservices⟩ := (run_playback {} unorderedCalls).descriptors_split hpeer
  obtain ⟨hends, hzones⟩ := hservices unordered (List.mem_singleton_self _)
  obtain ⟨-, -, hgreatest⟩ := hends ⟨⟨Uuid.command, 14, 16, ⟨Properties.write⟩⟩, []⟩ (by decide)
  exact ⟨hpeer, apart, by decide, hgreatest, (hzones apart).1 0xFFFD (by decide)⟩

end Registry

end CameraCentral
