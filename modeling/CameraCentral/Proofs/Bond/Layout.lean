import CameraCentral.Bond.Record

/-!
# Where the parts of a record stand

A record is written part by part, each part behind the one before it, and it is read in the same
way.  That says nothing about which byte of a record belongs to which part, and a part that is one
byte too long on both sides would go unnoticed.  `Bond.Lies` is the layout as a table of places, as
it would stand in a description of the format, and says nothing about writing or reading.

The layout decides everything.  A byte string has the parts of a bond at their places exactly if it
begins with the record of that bond (`lies_iff`), and these are exactly the byte strings from which
the bond is read (`read?_eq_some_iff`).  All bytes of a record but one are free: whether there is a
bond to read depends on the number of bytes and on the byte of the kind alone
(`isSome_read?_iff`).
-/

namespace CameraCentral

namespace Bytes

/-- The `n` bytes of a byte string that begin at a place, or as many of them as there are. -/
def slice (place n : Nat) (data : Bytes) : Bytes := (data.drop place).take n

variable {place n : Nat} {data front part back : Bytes}

/-- A slice that begins behind a part is a slice of what follows the part. -/
theorem slice_append_of_le (h : front.length ≤ place) :
    slice place n (front ++ back) = slice (place - front.length) n back := by
  rw [slice, List.drop_append, List.drop_eq_nil_of_le h, List.nil_append, slice]

/-- The slice that begins with a part and is as long as the part is the part. -/
theorem slice_zero_append (h : part.length = n) : slice 0 n (part ++ back) = part := by
  rw [slice, List.drop_zero, List.take_left' h]

@[simp] theorem slice_succ_cons (place n : Nat) (b : UInt8) (data : Bytes) :
    slice (place + 1) n (b :: data) = slice place n data := rfl

@[simp] theorem slice_zero_succ_cons (n : Nat) (b : UInt8) (data : Bytes) :
    slice 0 (n + 1) (b :: data) = b :: slice 0 n data := rfl

@[simp] theorem slice_zero_right (place : Nat) (data : Bytes) : slice place 0 data = [] := rfl

/-- A slice of one byte is the byte at the place. -/
theorem slice_one (place : Nat) (data : Bytes) : slice place 1 data = data[place]?.toList := by
  rw [slice, List.take_one, List.head?_drop]

/-- A slice is cut in two. -/
theorem slice_add (place n m : Nat) (data : Bytes) :
    slice place (n + m) data = slice place n data ++ slice (place + n) m data := by
  rw [slice, List.take_add, List.drop_drop, slice, slice]

theorem length_slice_of_le (h : place + n ≤ data.length) : (slice place n data).length = n := by
  rw [slice, List.length_take, List.length_drop]
  omega

theorem littleEndian_ofWord (w : UInt16) : littleEndian (ofWord w) = w.toNat := by
  have hvalue := toNat_word (UInt8.ofNat w.toNat) (UInt8.ofNat (w.toNat / 256))
  rw [word_ofWord] at hvalue
  exact hvalue.symm

/-- Two bytes are a word written out if they have the value of the word. -/
theorem eq_ofWord_of_littleEndian {w : UInt16} (length : data.length = 2)
    (value : littleEndian data = w.toNat) : data = ofWord w := by
  match data, length with
  | [low, high], _ =>
    have hword : word low high = w := by
      apply UInt16.toNat_inj.1
      rw [toNat_word, ← value]
      rfl
    rw [← hword, ofWord_word]

end Bytes

namespace Bond

open Bytes (slice)

variable {bond : Bond} {data : Bytes}

/-- The parts of a bond stand at their places in a byte string. -/
structure Lies (bond : Bond) (data : Bytes) : Prop where
  complete : encodedLength ≤ data.length
  address : slice 0 6 data = bond.address.bytes.toList
  kind : data[6]? = some bond.address.kind.code
  longTermKey : slice 7 16 data = bond.longTermKey.toList
  keyFlags : data[23]? = some bond.keyFlags
  /-- The low byte stands first. -/
  diversifier : Bytes.littleEndian (slice 24 2 data) = bond.diversifier.toNat
  random : slice 26 8 data = bond.random.toList
  identityKey : slice 34 16 data = bond.identityKey.toList

/-- In front of anything, a record has the parts of its bond at their places. -/
theorem lies_encode_append (bond : Bond) (rest : Bytes) : bond.Lies (bond.encode ++ rest) where
  complete := by simp
  address := by simp [encode, Bytes.slice_zero_append]
  kind := by simp [encode]
  longTermKey := by simp [encode, Bytes.slice_zero_append, Bytes.slice_append_of_le]
  keyFlags := by simp [encode, List.getElem?_append]
  diversifier := by
    have hword : slice 24 2 (bond.encode ++ rest) = Bytes.ofWord bond.diversifier := by
      simp [encode, Bytes.ofWord, Bytes.slice_append_of_le]
    rw [hword, Bytes.littleEndian_ofWord]
  random := by
    simp [encode, Bytes.ofWord, Bytes.slice_zero_append, Bytes.slice_append_of_le]
  identityKey := by
    simp [encode, Bytes.ofWord, Bytes.slice_zero_append, Bytes.slice_append_of_le]

/-- A byte string with the parts of a bond at their places begins with the record. -/
theorem Lies.take_eq (lies : bond.Lies data) : data.take encodedLength = bond.encode := by
  have hbyte : ∀ {place : Nat} {b : UInt8}, data[place]? = some b → slice place 1 data = [b] := by
    intro place b h
    rw [Bytes.slice_one, h, Option.toList_some]
  have hword : slice 24 2 data = Bytes.ofWord bond.diversifier := by
    have hroom : 24 + 2 ≤ data.length := Nat.le_trans (by decide) lies.complete
    exact Bytes.eq_ofWord_of_littleEndian (Bytes.length_slice_of_le hroom) lies.diversifier
  calc data.take encodedLength
      = slice 0 (6 + (1 + (16 + (1 + (2 + (8 + 16)))))) data := rfl
    _ = slice 0 6 data ++ (slice 6 1 data ++ (slice 7 16 data ++ (slice 23 1 data ++
          (slice 24 2 data ++ (slice 26 8 data ++ slice 34 16 data))))) := by
        rw [Bytes.slice_add, Bytes.slice_add, Bytes.slice_add, Bytes.slice_add, Bytes.slice_add,
          Bytes.slice_add]
    _ = bond.encode := by
        rw [lies.address, hbyte lies.kind, lies.longTermKey, hbyte lies.keyFlags, hword,
          lies.random, lies.identityKey]
        rfl

/-- **The layout is that of the record.** -/
theorem lies_iff : bond.Lies data ↔ bond.encode <+: data := by
  constructor
  · intro lies
    rw [← lies.take_eq]
    exact List.take_prefix _ _
  · rintro ⟨rest, rfl⟩
    exact lies_encode_append bond rest

/-! ## Reading -/

/-- The bond whose record stands at the front of a byte string. -/
def read? (data : Bytes) : Option Bond := (decode? data).map Prod.fst

/-- A bond is read from the byte strings that begin with its record. -/
theorem read?_eq_some_iff : read? data = some bond ↔ bond.encode <+: data := by
  rw [read?, Option.map_eq_some_iff]
  constructor
  · rintro ⟨⟨bond, rest⟩, h, rfl⟩
    exact ⟨rest, (decode?_eq_some_iff.1 h).symm⟩
  · rintro ⟨rest, rfl⟩
    exact ⟨(bond, rest), decode?_encode_append bond rest, rfl⟩

/-- Only the first bytes count, as many as a record has. -/
theorem read?_take (data : Bytes) : read? (data.take encodedLength) = read? data := by
  refine Option.ext fun bond => ?_
  rw [read?_eq_some_iff, read?_eq_some_iff, List.prefix_take_iff, length_encode]
  exact and_iff_left (Nat.le_refl _)

/-- A slice of a byte string that is long enough for it, as a block. -/
def blockAt (data : Bytes) (place n : Nat) (h : place + n ≤ data.length) : Vector UInt8 n :=
  ⟨(slice place n data).toArray, by simp [Bytes.length_slice_of_le h]⟩

@[simp] theorem toList_blockAt {place n : Nat} (h : place + n ≤ data.length) :
    (blockAt data place n h).toList = slice place n data := rfl

/-- A byte string that is long enough has the parts of a bond at their places if the byte of the
kind is the code of one. -/
theorem exists_lies {kind : AddressKind} (complete : encodedLength ≤ data.length)
    (hkind : data[6]? = some kind.code) : ∃ bond : Bond, bond.Lies data := by
  have hroom : 50 ≤ data.length := complete
  refine ⟨⟨⟨kind, blockAt data 0 6 (by omega)⟩, blockAt data 7 16 (by omega), data[23],
    Bytes.word data[24] data[25], blockAt data 26 8 (by omega), blockAt data 34 16 (by omega)⟩,
    complete, by simp, hkind, by simp, by simp, ?_, by simp, by simp⟩
  have hword : slice 24 2 data = [data[24], data[25]] := by
    rw [Bytes.slice_add 24 1 1, Bytes.slice_one, Bytes.slice_one,
      List.getElem?_eq_getElem (by omega), List.getElem?_eq_getElem (by omega)]
    rfl
  rw [hword, Bytes.toNat_word]
  rfl

/-- Whether there is a bond to read depends on the length and on the byte of the kind. -/
theorem isSome_read?_iff :
    (read? data).isSome ↔
      encodedLength ≤ data.length ∧ ∃ kind : AddressKind, data[6]? = some kind.code := by
  simp only [Option.isSome_iff_exists, read?_eq_some_iff, ← lies_iff]
  constructor
  · rintro ⟨bond, lies⟩
    exact ⟨lies.complete, bond.address.kind, lies.kind⟩
  · rintro ⟨complete, kind, hkind⟩
    exact exists_lies complete hkind

/-- A byte string that is too short is not read. -/
theorem read?_eq_none_of_length_lt (h : data.length < encodedLength) : read? data = none := by
  cases hread : read? data with
  | none => rfl
  | some bond =>
    have hlong := (isSome_read?_iff.1 (Option.isSome_of_eq_some hread)).1
    exact absurd h (Nat.not_lt_of_le hlong)

/-- The codes of the kinds are the numbers up to three. -/
theorem exists_code_iff {code : UInt8} :
    (∃ kind : AddressKind, kind.code = code) ↔ code ∈ ([0, 1, 2, 3] : List UInt8) := by
  constructor
  · rintro ⟨kind, rfl⟩
    cases kind <;> decide
  · intro h
    simp only [List.mem_cons, List.not_mem_nil, or_false] at h
    rcases h with rfl | rfl | rfl | rfl
    · exact ⟨.publicDevice, rfl⟩
    · exact ⟨.randomStatic, rfl⟩
    · exact ⟨.randomPrivateResolvable, rfl⟩
    · exact ⟨.randomPrivateNonResolvable, rfl⟩

/-! ## Writing and reading -/

/-- **A bond and its record determine each other.**  Written over the front of a buffer that is
long enough, a bond takes the place of as many bytes as a record has, with its parts at their
places, and leaves all bytes behind them alone; a buffer that is too short is left alone
altogether.  From every byte string that begins with these bytes the bond is read.  A bond is read
from a byte string exactly if there are enough bytes and the byte of the kind is the code of one,
and written again it gives the bytes from which it was read. -/
theorem record_bijection :
    (∀ (bond : Bond) (buffer : Bytes), encodedLength ≤ buffer.length →
      ∃ record : Bytes, record.length = encodedLength ∧ bond.Lies record ∧
        bond.writeTo buffer = ⟨.ok encodedLength, record ++ buffer.drop encodedLength⟩ ∧
        ∀ data, record <+: data → read? data = some bond) ∧
    (∀ (bond : Bond) (buffer : Bytes), buffer.length < encodedLength →
      bond.writeTo buffer = ⟨.error .bufferOverflow, buffer⟩) ∧
    ∀ data : Bytes,
      ((read? data).isSome ↔ encodedLength ≤ data.length ∧
        ∃ code, data[6]? = some code ∧ code ∈ ([0, 1, 2, 3] : List UInt8)) ∧
      ∀ bond : Bond, read? data = some bond →
        bond.Lies data ∧ ∀ buffer : Bytes, encodedLength ≤ buffer.length →
          bond.writeTo buffer =
            ⟨.ok encodedLength, data.take encodedLength ++ buffer.drop encodedLength⟩ := by
  refine ⟨fun bond buffer hroom => ?_, fun bond buffer hshort => ?_, fun data => ⟨?_, ?_⟩⟩
  · refine ⟨bond.encode, length_encode bond, lies_iff.2 List.prefix_rfl, if_pos hroom, ?_⟩
    exact fun data => read?_eq_some_iff.2
  · exact if_neg (Nat.not_le_of_lt hshort)
  · rw [isSome_read?_iff]
    refine and_congr_right fun _ => ?_
    simp only [← exists_code_iff]
    constructor
    · rintro ⟨kind, hkind⟩
      exact ⟨kind.code, hkind, kind, rfl⟩
    · rintro ⟨_, hkind, kind, rfl⟩
      exact ⟨kind, hkind⟩
  · intro bond hread
    have lies : bond.Lies data := lies_iff.2 (read?_eq_some_iff.1 hread)
    refine ⟨lies, fun buffer hroom => ?_⟩
    rw [lies.take_eq]
    exact if_pos hroom

/-- A record with a different byte in each place, and a random private resolvable address. -/
def sampleRecord : Bytes := (List.range encodedLength).map fun i => UInt8.ofNat (i + 252)

/-- The sample record is read, its bond gives it back in a buffer with two bytes to spare, and a
buffer with one byte too few stays as it is. -/
theorem sampleRecord_written_again :
    ∃ bond : Bond, read? sampleRecord = some bond ∧
      bond.writeTo (List.replicate 52 0xEE) = ⟨.ok 50, sampleRecord ++ [0xEE, 0xEE]⟩ ∧
      bond.writeTo (List.replicate 49 0xEE) = ⟨.error .bufferOverflow, List.replicate 49 0xEE⟩ ∧
      read? (sampleRecord ++ [0xEE]) = some bond := by
  obtain ⟨writes, overflows, reads⟩ := record_bijection
  obtain ⟨readable, again⟩ := reads sampleRecord
  have hcode : sampleRecord[6]? = some 2 := by decide
  obtain ⟨bond, hread⟩ := Option.isSome_iff_exists.1 (readable.2 ⟨by decide, 2, hcode, by decide⟩)
  have hagain := (again bond hread).2 (List.replicate 52 0xEE) (by decide)
  have htake : sampleRecord.take encodedLength = sampleRecord := by decide
  obtain ⟨record, -, -, hwritten, hread'⟩ := writes bond (List.replicate 52 0xEE) (by decide)
  rw [hagain, htake, Written.mk.injEq, List.append_left_inj] at hwritten
  obtain ⟨-, rfl⟩ := hwritten
  refine ⟨bond, hread, ?_, overflows bond _ (by decide), hread' _ (List.prefix_append _ _)⟩
  rw [hagain, htake]
  rfl

end Bond

end CameraCentral
