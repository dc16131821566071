/-!
# Byte strings

Byte strings are lists of bytes.  This file holds what every format of the library shares: 16-bit
words with the low byte first, the number that a longer byte string writes in the same order,
blocks of a fixed size split off the front, and the two hexadecimal digits of a byte.
-/

namespace CameraCentral

/-- A byte string, first byte first. -/
abbrev Bytes := List UInt8

namespace Bytes

/-! ## Words with the low byte first -/

/-- The 16-bit word with the given low and high bytes. -/
def word (low high : UInt8) : UInt16 :=
  UInt16.ofNat (low.toNat + 256 * high.toNat)

/-- The two bytes of a 16-bit word, low byte first. -/
def ofWord (w : UInt16) : Bytes :=
  [UInt8.ofNat w.toNat, UInt8.ofNat (w.toNat / 256)]

/-- The value of a word is read off its two bytes. -/
@[simp] theorem toNat_word (low high : UInt8) :
    (word low high).toNat = low.toNat + 256 * high.toNat := by
  have hl := low.toNat_lt
  have hh := high.toNat_lt
  simp only [word, UInt16.toNat_ofNat']
  omega

/-- Writing the word of two bytes gives the two bytes back. -/
@[simp] theorem ofWord_word (low high : UInt8) : ofWord (word low high) = [low, high] := by
  have hl := low.toNat_lt
  have hh := high.toNat_lt
  simp only [ofWord, toNat_word, List.cons.injEq, and_true]
  constructor
  · apply UInt8.toNat_inj.mp
    simp only [UInt8.toNat_ofNat']
    omega
  · apply UInt8.toNat_inj.mp
    simp only [UInt8.toNat_ofNat']
    omega

/-- A word written out has exactly two bytes, and they are read back as that word. -/
theorem word_ofWord (w : UInt16) :
    word (UInt8.ofNat w.toNat) (UInt8.ofNat (w.toNat / 256)) = w := by
  have hw := w.toNat_lt
  apply UInt16.toNat_inj.mp
  simp only [toNat_word, UInt8.toNat_ofNat']
  omega

@[simp] theorem length_ofWord (w : UInt16) : (ofWord w).length = 2 := rfl

/-- The words that stand one after the other in a byte string.  An odd byte at the end belongs to
no word. -/
def words : Bytes → List UInt16
  | low :: high :: rest => word low high :: words rest
  | _ => []

/-- The number that a byte string writes in base 256, least significant byte first. -/
def littleEndian : Bytes → Nat
  | [] => 0
  | b :: rest => b.toNat + 256 * littleEndian rest

/-! ## Blocks of a fixed size -/

/-- Splits the first `n` bytes off, or answers `none` if there are fewer. -/
def block? (n : Nat) (data : Bytes) : Option (Vector UInt8 n × Bytes) :=
  if h : n ≤ data.length then
    some (⟨(data.take n).toArray, by simp [h]⟩, data.drop n)
  else none

/-- A block written in front of a byte string is split off again. -/
@[simp] theorem block?_append {n : Nat} (block : Vector UInt8 n) (rest : Bytes) :
    block? n (block.toList ++ rest) = some (block, rest) := by
  obtain ⟨array, rfl⟩ := block
  simp [block?]

/-- Splitting takes the byte string apart and loses nothing. -/
theorem block?_eq_some_iff {n : Nat} {data rest : Bytes} {block : Vector UInt8 n} :
    block? n data = some (block, rest) ↔ data = block.toList ++ rest := by
  constructor
  · intro h
    simp only [block?] at h
    split at h
    · simp only [Option.some.injEq, Prod.mk.injEq] at h
      obtain ⟨rfl, rfl⟩ := h
      simp
    · contradiction
  · rintro rfl
    exact block?_append block rest

/-- Splits the first byte off. -/
def byte? : Bytes → Option (UInt8 × Bytes)
  | [] => none
  | b :: rest => some (b, rest)

/-- Splits the first two bytes off, as a word with the low byte first. -/
def word? : Bytes → Option (UInt16 × Bytes)
  | low :: high :: rest => some (word low high, rest)
  | _ => none

theorem byte?_eq_some_iff {data rest : Bytes} {b : UInt8} :
    byte? data = some (b, rest) ↔ data = b :: rest := by
  cases data <;> simp [byte?]

@[simp] theorem word?_append (w : UInt16) (rest : Bytes) :
    word? (ofWord w ++ rest) = some (w, rest) := by
  simp only [ofWord, word?, word_ofWord, List.cons_append, List.nil_append]

theorem word?_eq_some_iff {data rest : Bytes} {w : UInt16} :
    word? data = some (w, rest) ↔ data = ofWord w ++ rest := by
  constructor
  · intro h
    match data with
    | [] => simp [word?] at h
    | [_] => simp [word?] at h
    | low :: high :: _ =>
      simp only [word?, Option.some.injEq, Prod.mk.injEq] at h
      obtain ⟨rfl, rfl⟩ := h
      simp
  · rintro rfl
    exact word?_append w rest

/-! ## Hexadecimal digits -/

/-- The two hexadecimal digits of a byte, in lower case. -/
def hexDigits (b : UInt8) : List Char :=
  [Nat.digitChar (b.toNat / 16), Nat.digitChar (b.toNat % 16)]

end Bytes

end CameraCentral
