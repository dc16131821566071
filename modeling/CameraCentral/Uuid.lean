import CameraCentral.Bytes

/-!
# Attribute identifiers

An attribute is identified by a number of 128 bits.  A block of these numbers, which differ in 16
bits only, is set aside for assigned identifiers, and stacks report such an identifier either by
its 16-bit alias or in full.  `Uuid` keeps the form that was reported; `u ≈ v` says that two
identifiers are the same number, and every look-up of the library goes by it.
-/

namespace CameraCentral

/-- An attribute identifier in the form in which it was reported. -/
inductive Uuid where
  /-- An assigned identifier, by its alias. -/
  | short (code : UInt16)
  /-- Any identifier, in full. -/
  | full (value : BitVec 128)
deriving DecidableEq, Repr

namespace Uuid

/-- The lower 96 bits, which all assigned identifiers share. -/
def baseTail : BitVec 96 := 0x00001000800000805f9b34fb#96

/-- The assigned identifier with the given alias: the alias stands right above the shared bits, and
the sixteen bits above it are zero. -/
def expansion (code : UInt16) : BitVec 128 :=
  (0#16 ++ code.toBitVec) ++ baseTail

/-- The identifier as a number. -/
def value : Uuid → BitVec 128
  | short code => expansion code
  | full value => value

/-- The alias, if the identifier is an assigned one. -/
def code? (uuid : Uuid) : Option UInt16 :=
  let candidate : UInt16 := ⟨uuid.value.extractLsb' 96 16⟩
  if uuid.value = expansion candidate then some candidate else none

/-- The identifier that sixteen bytes write, least significant byte first. -/
def ofLittleEndian (bytes : Vector UInt8 16) : Uuid :=
  full (BitVec.ofNat 128 (Bytes.littleEndian bytes.toList))

/-- Two identifiers are the same when they are the same number, whatever their form. -/
instance : Setoid Uuid where
  r u v := u.value = v.value
  iseqv := ⟨fun _ => rfl, fun h => h.symm, fun h₁ h₂ => h₁.trans h₂⟩

instance (u v : Uuid) : Decidable (u ≈ v) :=
  inferInstanceAs (Decidable (u.value = v.value))

theorem equiv_iff {u v : Uuid} : u ≈ v ↔ u.value = v.value := Iff.rfl

@[simp] theorem value_short (code : UInt16) : (short code).value = expansion code := rfl

@[simp] theorem value_full (value : BitVec 128) : (full value).value = value := rfl

/-- The alias is read back off an assigned identifier. -/
theorem extractLsb'_expansion (code : UInt16) :
    (expansion code).extractLsb' 96 16 = code.toBitVec := by
  simp only [expansion]
  rw [BitVec.extractLsb'_append_eq_of_le (by omega), BitVec.extractLsb'_append_eq_right]

/-- Different aliases stand for different identifiers. -/
theorem expansion_inj {a b : UInt16} : expansion a = expansion b ↔ a = b := by
  constructor
  · intro h
    apply UInt16.toBitVec_inj.1
    rw [← extractLsb'_expansion a, h, extractLsb'_expansion b]
  · rintro rfl
    rfl

/-- An identifier has an alias exactly when it is the assigned identifier of that alias. -/
theorem code?_eq_some_iff {u : Uuid} {code : UInt16} : u.code? = some code ↔ u ≈ short code := by
  rw [equiv_iff, value_short, code?]
  constructor
  · intro h
    simp only [Option.ite_none_right_eq_some, Option.some.injEq] at h
    obtain ⟨h, rfl⟩ := h
    exact h
  · intro h
    simp [h, extractLsb'_expansion]

/-! ## The identifiers that the central looks for -/

/-- The alias of the service that a camera announces. -/
def cameraServiceAlias : UInt16 := 0xFEA6

/-- The service through which a camera is controlled. -/
def cameraService : Uuid := short cameraServiceAlias

/-- The characteristic to which commands are written. -/
def command : Uuid := full 0xb5f90072aa8d11e390460002a5d5c51b#128

/-- The characteristic that notifies the results of commands. -/
def commandResponse : Uuid := full 0xb5f90073aa8d11e390460002a5d5c51b#128

/-- The characteristic that notifies the answers to queries. -/
def queryResponse : Uuid := full 0xb5f90077aa8d11e390460002a5d5c51b#128

/-- The descriptor through which a client switches notifications and indications on. -/
def clientConfiguration : Uuid := short 0x2902

end Uuid

end CameraCentral
