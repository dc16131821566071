import CameraCentral.Gatt.Table

/-!
# Identifiers in full

An identifier keeps the form in which it was reported, and so does everything that is filed under
it.  `inFull` writes all identifiers of an entry in full.  Two entries are the same up to the form
of their identifiers if they are equal in full; for identifiers themselves that is `u ≈ v`
(`Uuid.inFull_eq_iff`).

Here it is shown for the tables of a database that nothing depends on the form: whatever is looked
up or filed, it comes to the same whether the identifiers are written in full before or after.
-/

namespace CameraCentral

/-! ## Identifiers and entries -/

/-- The identifier in full. -/
def Uuid.inFull (uuid : Uuid) : Uuid := .full uuid.value

/-- Two identifiers are equal in full exactly if they are the same. -/
theorem Uuid.inFull_eq_iff {u v : Uuid} : u.inFull = v.inFull ↔ u ≈ v := by
  rw [equiv_iff]
  exact ⟨Uuid.full.inj, congrArg Uuid.full⟩

/-- What is the same as one of two identifiers that are the same is the same as the other. -/
theorem Uuid.equiv_congr_right {u v w : Uuid} (h : u ≈ v) : w ≈ u ↔ w ≈ v := by
  rw [equiv_iff, equiv_iff, equiv_iff.1 h]

/-- A descriptor with its identifier in full. -/
def Descriptor.inFull (descriptor : Descriptor) : Descriptor :=
  { descriptor with uuid := descriptor.uuid.inFull }

/-- A declared characteristic with its identifier in full. -/
def CharacteristicDecl.inFull (decl : CharacteristicDecl) : CharacteristicDecl :=
  { decl with uuid := decl.uuid.inFull }

/-- A characteristic with all its identifiers in full. -/
def Characteristic.inFull (characteristic : Characteristic) : Characteristic where
  toCharacteristicDecl := characteristic.toCharacteristicDecl.inFull
  descriptors := characteristic.descriptors.map Descriptor.inFull

/-- A declared service with its identifier in full. -/
def ServiceDecl.inFull (decl : ServiceDecl) : ServiceDecl :=
  { decl with uuid := decl.uuid.inFull }

/-- A service with all its identifiers in full. -/
def Service.inFull (service : Service) : Service where
  toServiceDecl := service.toServiceDecl.inFull
  characteristics := service.characteristics.map Characteristic.inFull

/-! ### What is equal in full -/

/-- Two descriptors are equal in full if they are the same descriptor at the same handle. -/
theorem Descriptor.inFull_eq_iff {d d' : Descriptor} :
    d.inFull = d'.inFull ↔ d.uuid ≈ d'.uuid ∧ d.handle = d'.handle := by
  rw [← Uuid.inFull_eq_iff]
  exact Descriptor.mk.injEq .. ▸ Iff.rfl

/-- Two declared characteristics are equal in full if they are the same characteristic at the same
handles, with the same properties. -/
theorem CharacteristicDecl.inFull_eq_iff {c c' : CharacteristicDecl} :
    c.inFull = c'.inFull ↔ c.uuid ≈ c'.uuid ∧ c.declaration = c'.declaration ∧
      c.value = c'.value ∧ c.properties = c'.properties := by
  rw [← Uuid.inFull_eq_iff]
  exact CharacteristicDecl.mk.injEq .. ▸ Iff.rfl

/-- Two declared services are equal in full if they are the same service over the same handles. -/
theorem ServiceDecl.inFull_eq_iff {s s' : ServiceDecl} :
    s.inFull = s'.inFull ↔ s.uuid ≈ s'.uuid ∧ s.first = s'.first ∧ s.last = s'.last := by
  rw [← Uuid.inFull_eq_iff]
  exact ServiceDecl.mk.injEq .. ▸ Iff.rfl

/-! ### What stays as it is -/

@[simp] theorem Characteristic.properties_inFull (characteristic : Characteristic) :
    characteristic.inFull.properties = characteristic.properties := rfl

@[simp] theorem Characteristic.descriptors_inFull (characteristic : Characteristic) :
    characteristic.inFull.descriptors = characteristic.descriptors.map Descriptor.inFull := rfl

@[simp] theorem Service.characteristics_inFull (service : Service) :
    service.inFull.characteristics = service.characteristics.map Characteristic.inFull := rfl

/-! ## Looking entries up -/

/-- A descriptor is found in full as it is found. -/
theorem Characteristic.find?_inFull (characteristic : Characteristic) (uuid : Uuid) :
    characteristic.inFull.find? uuid = (characteristic.find? uuid).map Descriptor.inFull := by
  unfold Characteristic.find?
  rw [descriptors_inFull, List.find?_map]
  rfl

/-- A characteristic of a service is found in full as it is found. -/
theorem Service.find?_inFull (service : Service) (uuid : Uuid) :
    service.inFull.find? uuid = (service.find? uuid).map Characteristic.inFull := by
  unfold Service.find?
  rw [characteristics_inFull, List.find?_map]
  rfl

/-- Descriptors that are the same are looked for in the same way. -/
theorem Characteristic.find?_congr (characteristic : Characteristic) {u v : Uuid} (h : u ≈ v) :
    characteristic.find? u = characteristic.find? v := by
  unfold Characteristic.find?
  simp only [Uuid.equiv_congr_right h]

/-- Characteristics that are the same are looked for in the same way. -/
theorem Service.find?_congr (service : Service) {u v : Uuid} (h : u ≈ v) :
    service.find? u = service.find? v := by
  unfold Service.find?
  simp only [Uuid.equiv_congr_right h]

/-- The room for descriptors does not depend on the form of identifiers. -/
@[simp] theorem Service.descriptorEnd_inFull (service : Service) (value : AttHandle) :
    service.inFull.descriptorEnd value = service.descriptorEnd value := by
  unfold descriptorEnd
  rw [characteristics_inFull, List.map_map]
  rfl

/-! ## Filing entries -/

namespace Table

variable {α β : Type}

/-- An entry can be passed through a function before it is put into a table, or after. -/
theorem push_map (f : α → β) (limit : Nat) (full : Fault) (table : List α) (entry : α) :
    push limit full (table.map f) (f entry) = (push limit full table entry).map (List.map f) := by
  unfold push
  rw [List.length_map]
  by_cases room : table.length < limit
  · rw [if_pos room, if_pos room, Except.map, List.map_append, List.map_singleton]
  · rw [if_neg room, if_neg room, Except.map]

/-- A function that the test and the change go along with can be applied before the change of an
entry, or after. -/
theorem alterFirst_map {f : α → β} {p : α → Prop} {q : β → Prop} [DecidablePred p]
    [DecidablePred q] {change : α → Except Fault α} {change' : β → Except Fault β}
    (test : ∀ entry, q (f entry) ↔ p entry)
    (commutes : ∀ entry, change' (f entry) = (change entry).map f) (missing : Fault)
    (table : List α) :
    alterFirst q change' missing (table.map f) =
      (alterFirst p change missing table).map (List.map f) := by
  induction table with
  | nil => rfl
  | cons entry table ih =>
    rw [List.map_cons, alterFirst, alterFirst]
    by_cases found : p entry
    · rw [if_pos found, if_pos ((test entry).2 found), commutes]
      cases change entry with
      | error why => rfl
      | ok entry' => rfl
    · rw [if_neg found, if_neg fun h => found ((test entry).1 h), ih]
      cases alterFirst p change missing table with
      | error why => rfl
      | ok table' => rfl

end Table

/-- A descriptor is filed in full as it is filed. -/
theorem Characteristic.add_inFull (characteristic : Characteristic) (descriptor : Descriptor) :
    characteristic.inFull.add descriptor.inFull =
      (characteristic.add descriptor).map Characteristic.inFull := by
  unfold Characteristic.add
  rw [descriptors_inFull, Table.push_map]
  cases Table.push Settings.maxDescriptors .descriptorTableFull characteristic.descriptors
    descriptor with
  | error why => rfl
  | ok descriptors => rfl

/-- A characteristic is filed in full as it is filed. -/
theorem Service.add_inFull (service : Service) (decl : CharacteristicDecl) :
    service.inFull.add decl.inFull = (service.add decl).map Service.inFull := by
  unfold Service.add
  have push := Table.push_map Characteristic.inFull Settings.maxCharacteristics
    .characteristicTableFull service.characteristics { decl with }
  rw [characteristics_inFull]
  change Except.map _ (Table.push _ _ _ (Characteristic.inFull { decl with })) = _
  rw [push]
  cases Table.push Settings.maxCharacteristics .characteristicTableFull service.characteristics
    { decl with } with
  | error why => rfl
  | ok characteristics => rfl

/-- A descriptor is filed in full in a service as it is filed. -/
theorem Service.addDescriptor_inFull (service : Service) (value : AttHandle)
    (descriptor : Descriptor) :
    service.inFull.addDescriptor value descriptor.inFull =
      (service.addDescriptor value descriptor).map Service.inFull := by
  unfold Service.addDescriptor
  rw [characteristics_inFull, Table.alterFirst_map (p := fun c : Characteristic => c.value = value)
    (fun _ => Iff.rfl) fun c => c.add_inFull descriptor]
  cases Table.alterFirst (·.value = value) (·.add descriptor) (.characteristicNotFound value)
    service.characteristics with
  | error why => rfl
  | ok characteristics => rfl

end CameraCentral
