import CameraCentral.Uuid
import Mathlib.Data.Nat.Digits.Lemmas

/-!
# The forms of an identifier

An identifier comes in one of three forms: as the alias of an assigned identifier, as a number of
128 bits, or as the sixteen bytes that go on air, least significant byte first.  Which form it comes
in must not matter, for every look-up compares identifiers that were reported with identifiers that
the library knows.

An assigned identifier is the base identifier (`Uuid.base`) with the alias written into sixteen of
its bits (`Uuid.aliasMask`).  The other bits all count, those above the alias as well as those below
it: an identifier that differs from the base identifier in one of them has no alias.
`Uuid.forms_agree` says that the forms can be exchanged, and that what can be said of an identifier
depends on the number alone.
-/

namespace CameraCentral

/-! ## Sixteen bytes -/

namespace Bytes

variable {data data' : Bytes}

/-- A byte string writes a number in base 256: its bytes are the digits. -/
theorem littleEndian_eq_ofDigits (data : Bytes) :
    littleEndian data = Nat.ofDigits 256 (data.map UInt8.toNat) := by
  induction data with
  | nil => rfl
  | cons b rest ih => rw [littleEndian, ih, List.map_cons, Nat.ofDigits_cons]

/-- The digits of a byte string are digits in base 256. -/
theorem lt_of_mem_digits {digit : Nat} (h : digit ∈ data.map UInt8.toNat) : digit < 256 := by
  obtain ⟨b, -, rfl⟩ := List.mem_map.1 h
  exact b.toNat_lt

theorem littleEndian_lt (data : Bytes) : littleEndian data < 256 ^ data.length := by
  rw [littleEndian_eq_ofDigits, ← List.length_map UInt8.toNat]
  exact Nat.ofDigits_lt_base_pow_length (by decide) fun _ => lt_of_mem_digits

/-- Byte strings of one length that write the same number are the same. -/
theorem eq_of_littleEndian_eq (length : data.length = data'.length)
    (value : littleEndian data = littleEndian data') : data = data' := by
  rw [littleEndian_eq_ofDigits, littleEndian_eq_ofDigits] at value
  have hdigits : data.map UInt8.toNat = data'.map UInt8.toNat :=
    Nat.ofDigits_inj_of_len_eq (by decide) (by simpa using length) (fun _ => lt_of_mem_digits)
      (fun _ => lt_of_mem_digits) value
  exact List.map_injective_iff.2 (fun _ _ => UInt8.toNat_inj.1) hdigits

/-- Every number that is not too large is written by a byte string of a given length. -/
theorem exists_littleEndian_eq {n value : Nat} (h : value < 256 ^ n) :
    ∃ data : Bytes, data.length = n ∧ littleEndian data = value := by
  obtain ⟨digits, ⟨hlength, hdigits⟩, hvalue⟩ := (Nat.bijOn_ofDigits (by decide) n).surjOn h
  have hbyte : ∀ digit ∈ digits, (UInt8.toNat ∘ UInt8.ofNat) digit = id digit :=
    fun digit hdigit => UInt8.toNat_ofNat_of_lt (hdigits digit hdigit)
  have hbytes : (digits.map UInt8.ofNat).map UInt8.toNat = digits := by
    rw [List.map_map, List.map_congr_left hbyte, List.map_id]
  refine ⟨digits.map UInt8.ofNat, by rw [List.length_map, hlength], ?_⟩
  rw [littleEndian_eq_ofDigits, hbytes, hvalue]

end Bytes

namespace Uuid

variable {u : Uuid} {bytes : Vector UInt8 16} {x : BitVec 128}

/-- Sixteen bytes are an identifier if they write its number, which takes no more bits than there
are. -/
theorem ofLittleEndian_equiv_iff :
    ofLittleEndian bytes ≈ u ↔ Bytes.littleEndian bytes.toList = u.value.toNat := by
  have hlt : Bytes.littleEndian bytes.toList < 2 ^ 128 := by
    have hdigits := Bytes.littleEndian_lt bytes.toList
    rwa [Vector.length_toList] at hdigits
  rw [equiv_iff, ← BitVec.toNat_inj, ofLittleEndian, value_full, BitVec.toNat_ofNat,
    Nat.mod_eq_of_lt hlt]

/-- Every identifier is written by sixteen bytes, and by no others. -/
theorem existsUnique_ofLittleEndian (u : Uuid) : ∃! bytes, ofLittleEndian bytes ≈ u := by
  simp only [ofLittleEndian_equiv_iff]
  obtain ⟨data, hlength, hvalue⟩ := Bytes.exists_littleEndian_eq (n := 16) u.value.isLt
  refine ⟨⟨data.toArray, hlength⟩, hvalue, fun bytes hbytes => ?_⟩
  apply Vector.toList_inj.1
  exact Bytes.eq_of_littleEndian_eq (by simp [hlength]) (hbytes.trans hvalue.symm)

/-! ## The bits of an assigned identifier -/

/-- The assigned identifier with alias 0. -/
def base : BitVec 128 := 0x00000000_0000_1000_8000_00805f9b34fb#128

/-- The sixteen bits in which assigned identifiers differ. -/
def aliasMask : BitVec 128 := 0xFFFF#128 <<< 96

/-- The base identifier has no bits where aliases are, and none above. -/
theorem getLsbD_base (i : Nat) : base.getLsbD i = (decide (i < 96) && baseTail.getLsbD i) := by
  have hbase : base = 0#32 ++ baseTail := by decide
  rw [hbase, BitVec.getLsbD_append]
  by_cases h : i < 96 <;> simp [h]

theorem getLsbD_aliasMask (i : Nat) :
    aliasMask.getLsbD i = (decide (96 ≤ i) && decide (i < 112)) := by
  have hones : 0xFFFF#128 = (BitVec.allOnes 16).setWidth 128 := by decide
  rw [aliasMask, hones, BitVec.getLsbD_shiftLeft, BitVec.getLsbD_setWidth, BitVec.getLsbD_allOnes]
  grind

/-- The bits of an assigned identifier are those of the base identifier, and those of the alias from
place 96 on. -/
theorem getLsbD_expansion (code : UInt16) (i : Nat) :
    (expansion code).getLsbD i =
      (base.getLsbD i || (decide (96 ≤ i) && code.toBitVec.getLsbD (i - 96))) := by
  rw [getLsbD_base, expansion, BitVec.getLsbD_append, BitVec.getLsbD_append]
  grind

/-- An assigned identifier is the alias, shifted to its place, over the base identifier. -/
theorem expansion_eq_or (code : UInt16) :
    expansion code = base ||| (code.toBitVec.setWidth 128 <<< 96) := by
  apply BitVec.eq_of_getLsbD_eq
  intro i hi
  rw [getLsbD_expansion, BitVec.getLsbD_or, BitVec.getLsbD_shiftLeft, BitVec.getLsbD_setWidth]
  grind

/-- Outside of the sixteen bits all assigned identifiers look like the base identifier. -/
theorem expansion_and_not_aliasMask (code : UInt16) : expansion code &&& ~~~aliasMask = base := by
  apply BitVec.eq_of_getLsbD_eq
  intro i hi
  rw [BitVec.getLsbD_and, BitVec.getLsbD_not, getLsbD_aliasMask, getLsbD_expansion, getLsbD_base]
  grind

/-- An identifier that looks like the base identifier outside of the sixteen bits is the assigned
identifier of what stands in them. -/
theorem eq_expansion_of_and_not_aliasMask (h : x &&& ~~~aliasMask = base) :
    x = expansion ⟨x.extractLsb' 96 16⟩ := by
  apply BitVec.eq_of_getLsbD_eq
  intro i hi
  rw [getLsbD_expansion, ← h, BitVec.getLsbD_and, BitVec.getLsbD_not, getLsbD_aliasMask]
  grind

/-- An identifier has an alias exactly if it looks like the base identifier outside of the sixteen
bits, and then the alias is what stands in them. -/
theorem code?_eq_ite (u : Uuid) :
    u.code? = if u.value &&& ~~~aliasMask = base then some ⟨(u.value >>> 96).setWidth 16⟩
      else none := by
  have hshift : u.value.extractLsb' 96 16 = (u.value >>> 96).setWidth 16 := by
    ext i hi
    simp
  have hassigned : u.value = expansion ⟨u.value.extractLsb' 96 16⟩ ↔
      u.value &&& ~~~aliasMask = base := by
    constructor
    · intro h
      rw [h]
      exact expansion_and_not_aliasMask _
    · exact eq_expansion_of_and_not_aliasMask
  simp only [code?, hassigned]
  rw [hshift]

/-- **The forms of an identifier agree.**  An identifier has an alias exactly if it is the assigned
identifier of that alias.  It has one if it looks like the base identifier outside of sixteen bits,
and the alias is what stands in them; an alias shifted to this place over the base identifier is the
assigned identifier, and different aliases give different identifiers.  A number written in full is
that number, and an identifier is the same as its number in full.  Sixteen bytes are the identifier
whose digits in base 256 they are, least significant first, and every identifier is written by
sixteen bytes in just one way.  Identifiers are the same if their numbers are; this is an
equivalence, and identifiers that are the same have the same alias or none. -/
theorem forms_agree (u : Uuid) (code : UInt16) (x : BitVec 128) (bytes : Vector UInt8 16) :
    (u.code? = some code ↔ u ≈ short code) ∧
    (u.code? = if u.value &&& ~~~aliasMask = base then some ⟨(u.value >>> 96).setWidth 16⟩
      else none) ∧
    (short code).value = base ||| (code.toBitVec.setWidth 128 <<< 96) ∧
    (∀ code', short code ≈ short code' ↔ code = code') ∧
    ((full x).value = x ∧ full u.value ≈ u) ∧
    (ofLittleEndian bytes ≈ full x ↔
      Nat.ofDigits 256 (bytes.toList.map UInt8.toNat) = x.toNat) ∧
    (∃! bytes, ofLittleEndian bytes ≈ u) ∧
    Equivalence (fun u v : Uuid => u ≈ v) ∧
    ∀ v, (u ≈ v ↔ u.value = v.value) ∧ (u ≈ v → u.code? = v.code?) := by
  refine ⟨code?_eq_some_iff, code?_eq_ite u, expansion_eq_or code, fun code' => expansion_inj,
    ⟨rfl, rfl⟩, ?_, existsUnique_ofLittleEndian u, Setoid.iseqv, fun v => ⟨equiv_iff, fun h => ?_⟩⟩
  · rw [ofLittleEndian_equiv_iff, Bytes.littleEndian_eq_ofDigits, value_full]
  · rw [code?, code?, equiv_iff.1 h]

/-- One bit above the alias makes it another identifier, and not an assigned one. -/
example : (full 0x0001fea6_0000_1000_8000_00805f9b34fb#128).code? = none := by decide

end Uuid

end CameraCentral
