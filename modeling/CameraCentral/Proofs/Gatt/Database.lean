import CameraCentral.Gatt.Basic
import CameraCentral.Settings

/-!
# Databases

The database of a peer as it is at the peer, in contrast to the tables in which it is filed as it is
discovered.  A `Database` is well-formed by construction: services do not overlap, characteristics
lie in their services one behind the other, and the descriptors of a characteristic lie between its
value and the next declaration.  It is also small enough for the tables.

A peer is asked for the entries in a range of handles.  The ranges that a walk asks for hold the
entries of one service or of one characteristic and nothing else (`characteristicsIn_service` and
`descriptorsIn_characteristic`).
-/

namespace CameraCentral

/-- A list of lists that are filtered down to one of them. -/
theorem filter_flatMap_of_split {α β : Type} {f : α → List β} {p : β → Prop} [DecidablePred p]
    {before after : List α} {a : α} (h : ∀ b ∈ before ++ after, ∀ x ∈ f b, ¬ p x) :
    ((before ++ a :: after).flatMap f).filter (fun x => p x) = (f a).filter fun x => p x := by
  have hnil : ∀ l : List α, (∀ b ∈ l, ∀ x ∈ f b, ¬ p x) →
      (l.flatMap f).filter (fun x => p x) = [] := by
    intro l hl
    refine List.filter_eq_nil_iff.2 fun x hx => ?_
    obtain ⟨b, hb, hxb⟩ := List.mem_flatMap.1 hx
    simpa using hl b hb x hxb
  rw [List.flatMap_append, List.flatMap_cons, List.filter_append, List.filter_append,
    hnil before fun b hb => h b (List.mem_append_left _ hb),
    hnil after fun b hb => h b (List.mem_append_right _ hb), List.nil_append, List.append_nil]

/-! ## Services -/

/-- A service as a peer can have it. -/
structure Service.IsFormed (service : Service) : Prop where
  ordered : service.first ≤ service.last
  room : service.characteristics.length ≤ Settings.maxCharacteristics
  inside : ∀ c ∈ service.characteristics,
    service.first ≤ c.declaration ∧ c.declaration < c.value ∧ c.value ≤ service.last
  ascending : service.characteristics.Pairwise fun c c' => c.value < c'.declaration
  descriptorRoom : ∀ c ∈ service.characteristics, c.descriptors.length ≤ Settings.maxDescriptors
  descriptors : ∀ c ∈ service.characteristics, ∀ d ∈ c.descriptors,
    c.value < d.handle ∧ d.handle ≤ service.last ∧
      ∀ c' ∈ service.characteristics, c.value < c'.declaration → d.handle < c'.declaration

namespace Service

variable {service : Service} {first rest : List Characteristic} {characteristic : Characteristic}

/-- A handle can hold a descriptor exactly if it lies in the service and before the next
declaration. -/
theorem le_descriptorEnd_iff (inside : ∀ c ∈ service.characteristics, c.declaration ≤ service.last)
    (value handle : AttHandle) :
    handle ≤ service.descriptorEnd value ↔
      handle ≤ service.last ∧
        ∀ c ∈ service.characteristics, value < c.declaration → handle < c.declaration := by
  have hmem : ∀ next, next ∈ (service.characteristics.map (·.declaration)).filter (value < ·) ↔
      (∃ c ∈ service.characteristics, c.declaration = next) ∧ value < next := by
    intro next
    rw [List.mem_filter, List.mem_map, decide_eq_true_eq]
  unfold descriptorEnd
  cases hmin : ((service.characteristics.map (·.declaration)).filter (value < ·)).min? with
  | none =>
    rw [List.min?_eq_none_iff] at hmin
    constructor
    · intro h
      refine ⟨h, fun c hc hlt => ?_⟩
      have hnext := (hmem c.declaration).2 ⟨⟨c, hc, rfl⟩, hlt⟩
      rw [hmin] at hnext
      cases hnext
    · exact fun h => h.1
  | some next =>
    obtain ⟨hnext, hleast⟩ := List.min?_eq_some_iff.1 hmin
    obtain ⟨⟨c, hc, rfl⟩, hlt⟩ := (hmem next).1 hnext
    have hlast := inside c hc
    constructor
    · intro h
      have hhandle : handle < c.declaration := by grind
      refine ⟨by grind, fun c' hc' hlt' => ?_⟩
      have hle := hleast c'.declaration ((hmem c'.declaration).2 ⟨⟨c', hc', rfl⟩, hlt'⟩)
      grind
    · rintro ⟨-, h⟩
      have hhandle := h c hc hlt
      simp only
      grind

namespace IsFormed

theorem declaration_le_last (h : service.IsFormed) :
    ∀ c ∈ service.characteristics, c.declaration ≤ service.last := by
  intro c hc
  obtain ⟨-, hlt, hle⟩ := h.inside c hc
  grind

/-- A service contains its characteristics. -/
theorem contains (h : service.IsFormed) (hc : characteristic ∈ service.characteristics) :
    service.Contains characteristic.declaration ∧ service.Contains characteristic.value := by
  obtain ⟨hfirst, hlt, hlast⟩ := h.inside characteristic hc
  exact ⟨⟨hfirst, by grind⟩, by grind, hlast⟩

/-- Characteristics lie one behind the other. -/
theorem of_split (h : service.IsFormed)
    (hsplit : service.characteristics = first ++ characteristic :: rest) :
    (∀ c ∈ first, c.value < characteristic.declaration) ∧
      ∀ c ∈ rest, characteristic.value < c.declaration := by
  have hascending := h.ascending
  rw [hsplit, List.pairwise_append] at hascending
  obtain ⟨-, hrest, hfirst⟩ := hascending
  exact ⟨fun c hc => hfirst c hc characteristic List.mem_cons_self, (List.pairwise_cons.1 hrest).1⟩

/-- The values of earlier characteristics are other handles. -/
theorem value_ne (h : service.IsFormed)
    (hsplit : service.characteristics = first ++ characteristic :: rest) :
    ∀ c ∈ first, ¬ c.value = characteristic.value := by
  intro c hc heq
  have hfirst := (h.of_split hsplit).1 c hc
  obtain ⟨-, hlt, -⟩ := h.inside characteristic (by simp [hsplit])
  grind

/-- Descriptors lie in the range in which they are looked for. -/
theorem mem_range (h : service.IsFormed) (hc : characteristic ∈ service.characteristics)
    {d : Descriptor} (hd : d ∈ characteristic.descriptors) :
    characteristic.value < d.handle ∧ d.handle ≤ service.descriptorEnd characteristic.value := by
  obtain ⟨hvalue, hlast, hnext⟩ := h.descriptors characteristic hc d hd
  exact ⟨hvalue, (le_descriptorEnd_iff h.declaration_le_last _ _).2 ⟨hlast, hnext⟩⟩

/-- A characteristic without room has no descriptors. -/
theorem descriptors_eq_nil (h : service.IsFormed) (hc : characteristic ∈ service.characteristics)
    (full : ¬ characteristic.value < service.descriptorEnd characteristic.value) :
    characteristic.descriptors = [] := by
  refine List.eq_nil_iff_forall_not_mem.2 fun d hd => ?_
  obtain ⟨hvalue, hend⟩ := h.mem_range hc hd
  grind

/-- A service without room has no characteristics. -/
theorem characteristics_eq_nil (h : service.IsFormed) (full : ¬ service.first < service.last) :
    service.characteristics = [] := by
  refine List.eq_nil_iff_forall_not_mem.2 fun c hc => ?_
  obtain ⟨hfirst, hlt, hlast⟩ := h.inside c hc
  grind

/-- No descriptor of another characteristic lies in the range in which the descriptors of one are
looked for. -/
theorem not_mem_range (h : service.IsFormed)
    (hsplit : service.characteristics = first ++ characteristic :: rest) {c : Characteristic}
    (hc : c ∈ first ++ rest) {d : Descriptor} (hd : d ∈ c.descriptors) :
    ¬ (characteristic.value < d.handle ∧
      d.handle ≤ service.descriptorEnd characteristic.value) := by
  rintro ⟨hvalue, hend⟩
  obtain ⟨hfirst, hrest⟩ := h.of_split hsplit
  have hself : characteristic ∈ service.characteristics := by simp [hsplit]
  obtain ⟨-, hlt, -⟩ := h.inside characteristic hself
  have hmem : c ∈ service.characteristics := by
    rw [hsplit]
    rcases List.mem_append.1 hc with hc | hc
    · exact List.mem_append_left _ hc
    · exact List.mem_append_right _ (List.mem_cons_of_mem _ hc)
  obtain ⟨hdvalue, -, hdnext⟩ := h.descriptors c hmem d hd
  rcases List.mem_append.1 hc with hc | hc
  · -- The descriptors of an earlier characteristic lie before the declaration of this one.
    have hbefore := hdnext characteristic hself (hfirst c hc)
    grind
  · -- The declaration of a later characteristic ends the range.
    obtain ⟨-, hclt, -⟩ := h.inside c hmem
    have hnext := ((le_descriptorEnd_iff h.declaration_le_last _ _).1 hend).2 c hmem (hrest c hc)
    grind

end IsFormed

end Service

/-! ## Databases -/

/-- The database of a peer. -/
structure Database where
  /-- The services, in the order in which the peer reports them. -/
  services : List Service
  room : services.length ≤ Settings.maxServices
  disjoint : services.Pairwise fun service service' =>
    service.last < service'.first ∨ service'.last < service.first
  formed : ∀ service ∈ services, service.IsFormed

namespace Database

/-- The characteristics declared in a range of handles. -/
def characteristicsIn (database : Database) (first last : AttHandle) : List Characteristic :=
  (database.services.flatMap (·.characteristics)).filter fun c =>
    first ≤ c.declaration ∧ c.declaration ≤ last

/-- The descriptors behind a handle, up to another. -/
def descriptorsIn (database : Database) (value last : AttHandle) : List Descriptor :=
  (database.services.flatMap fun service =>
    service.characteristics.flatMap (·.descriptors)).filter fun d =>
      value < d.handle ∧ d.handle ≤ last

variable {database : Database} {before after : List Service} {service : Service}

/-- The ranges of other services do not meet the range of a service. -/
theorem disjoint_of_split (h : database.services = before ++ service :: after) :
    ∀ other ∈ before ++ after, other.last < service.first ∨ service.last < other.first := by
  have hdisjoint := database.disjoint
  rw [h, List.pairwise_append] at hdisjoint
  obtain ⟨-, hafter, hbefore⟩ := hdisjoint
  intro other hother
  rcases List.mem_append.1 hother with hother | hother
  · exact hbefore other hother service List.mem_cons_self
  · exact ((List.pairwise_cons.1 hafter).1 other hother).symm

theorem formed_of_split (h : database.services = before ++ service :: after) :
    service.IsFormed :=
  database.formed service (by simp [h])

theorem formed_of_mem_split (h : database.services = before ++ service :: after) :
    ∀ other ∈ before ++ after, other.IsFormed := by
  intro other hother
  refine database.formed other ?_
  rw [h]
  rcases List.mem_append.1 hother with hother | hother
  · exact List.mem_append_left _ hother
  · exact List.mem_append_right _ (List.mem_cons_of_mem _ hother)

/-- A handle is contained in no more than one service. -/
theorem not_contains (h : database.services = before ++ service :: after) {handle : AttHandle}
    (hcontains : service.Contains handle) : ∀ other ∈ before ++ after, ¬ other.Contains handle := by
  rintro other hother ⟨hfirst, hlast⟩
  obtain ⟨hfirst', hlast'⟩ := hcontains
  rcases disjoint_of_split h other hother with hlt | hlt
  · grind
  · grind

/-- The values of the characteristics of other services are other handles. -/
theorem value_ne (h : database.services = before ++ service :: after)
    {characteristic : Characteristic} (hc : characteristic ∈ service.characteristics) :
    ∀ other ∈ before ++ after, ∀ c ∈ other.characteristics, ¬ c.value = characteristic.value := by
  intro other hother c hc' heq
  have hcontains := ((formed_of_mem_split h other hother).contains hc').2
  rw [heq] at hcontains
  exact not_contains h ((formed_of_split h).contains hc).2 other hother hcontains

/-- **The characteristics in the range of a service are those of the service.** -/
theorem characteristicsIn_service (h : database.services = before ++ service :: after) :
    database.characteristicsIn service.first service.last = service.characteristics := by
  have hformed := formed_of_split h
  unfold characteristicsIn
  rw [h, filter_flatMap_of_split (fun other hother c hc => ?_)]
  · refine List.filter_eq_self.2 fun c hc => decide_eq_true ?_
    exact ⟨(hformed.inside c hc).1, hformed.declaration_le_last c hc⟩
  · have hother' := formed_of_mem_split h other hother
    have hfirst := (hother'.inside c hc).1
    have hlast := hother'.declaration_le_last c hc
    rcases disjoint_of_split h other hother with hlt | hlt
    · grind
    · grind

/-- **The descriptors in the range of a characteristic are those of the characteristic.** -/
theorem descriptorsIn_characteristic (h : database.services = before ++ service :: after)
    {first rest : List Characteristic} {characteristic : Characteristic}
    (hsplit : service.characteristics = first ++ characteristic :: rest) :
    database.descriptorsIn characteristic.value
      (service.descriptorEnd characteristic.value) = characteristic.descriptors := by
  have hformed := formed_of_split h
  have hself : characteristic ∈ service.characteristics := by simp [hsplit]
  have hend := ((Service.le_descriptorEnd_iff hformed.declaration_le_last characteristic.value
    (service.descriptorEnd characteristic.value)).1 (by grind)).1
  unfold descriptorsIn
  rw [h, filter_flatMap_of_split (fun other hother d hd => ?_), hsplit,
    filter_flatMap_of_split (fun c hc d hd => ?_)]
  · refine List.filter_eq_self.2 fun d hd => decide_eq_true ?_
    exact hformed.mem_range hself hd
  · exact hformed.not_mem_range hsplit hc hd
  · obtain ⟨c, hc, hd⟩ := List.mem_flatMap.1 hd
    have hother' := formed_of_mem_split h other hother
    obtain ⟨hvalue, hlast, -⟩ := hother'.descriptors c hc d hd
    obtain ⟨hcfirst, hclt, -⟩ := hother'.inside c hc
    obtain ⟨hfirst, hlt, -⟩ := hformed.inside characteristic hself
    rcases disjoint_of_split h other hother with hdisjoint | hdisjoint
    · grind
    · grind

end Database

end CameraCentral
