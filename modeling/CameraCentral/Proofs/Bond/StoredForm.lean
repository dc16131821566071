import CameraCentral.Proofs.Bond.Layout
import CameraCentral.Proofs.Bond.Uniqueness
import Mathlib.Order.Bounds.Defs

/-!
# What a stored form holds

Flash can hold anything: an item that was cut off, a count that lies, a record in the middle that
nobody wrote.  What is read from it is described here without following the reader.  Behind the
count byte a byte string is a row of blocks, each as long as a record (`block`), and a keyring is
read from the longest run of blocks at the front that are all `Legible`, within the count and
within the room of a keyring (`isGreatest_length_decode`).

Writing is the other way round: of the records those are written that fit whole, and the first one
that does not fit ends the writing (`buffer_writeTo_cons`).  The two meet where a stored form is cut
off: from its front as many bonds come back as there are whole records in it
(`decode_take_buffer_writeTo`).
-/

namespace CameraCentral

namespace Keyring

open Bytes (slice)

variable {ring : Keyring} {bonds : List Bond} {data buffer : Bytes} {n i m : Nat}

/-- A block of a stored form, counted from the first one behind the count byte. -/
def block (data : Bytes) (i : Nat) : Bytes :=
  slice (1 + i * Bond.encodedLength) Bond.encodedLength data

/-- A block is complete, and is the record of a bond. -/
def Legible (data : Bytes) (i : Nat) : Prop :=
  (block data i).length = Bond.encodedLength ∧ (Bond.read? (block data i)).isSome

/-- How many records out of `n` fit whole into a number of bytes, behind the count byte. -/
def fitting (n m : Nat) : Nat := min n ((m - 1) / Bond.encodedLength)

theorem take_fitting (bonds : List Bond) (m : Nat) :
    bonds.take (fitting bonds.length m) = bonds.take ((m - 1) / Bond.encodedLength) := by
  rw [fitting, Nat.min_comm, ← List.take_eq_take_min]

/-! ## Reading -/

@[simp] theorem block_cons (count : UInt8) (data : Bytes) (i : Nat) :
    block (count :: data) i = slice (i * Bond.encodedLength) Bond.encodedLength data := by
  rw [block, Nat.add_comm, Bytes.slice_succ_cons]

/-- A block that is read is complete. -/
theorem legible_iff : Legible data i ↔ (Bond.read? (block data i)).isSome := by
  refine and_iff_right_of_imp fun h => Nat.le_antisymm ?_ (Bond.isSome_read?_iff.1 h).1
  rw [block, slice, List.length_take]
  exact Nat.min_le_left _ _

/-- Where there is no record at the front, there is none to read. -/
theorem readRecords_eq_nil (h : Bond.read? data = none) (n : Nat) : readRecords n data = [] := by
  rw [Bond.read?, Option.map_eq_none_iff] at h
  cases n with
  | zero => rfl
  | succ n => simp only [readRecords, h]

@[simp] theorem readRecords_succ_encode_append (n : Nat) (bond : Bond) (rest : Bytes) :
    readRecords (n + 1) (bond.encode ++ rest) = bond :: readRecords n rest := by
  simp only [readRecords, Bond.decode?_encode_append]

/-- The records that are read are those in the blocks, and the block behind the last of them holds
none if more were asked for. -/
theorem getElem?_readRecords (hi : i ≤ (readRecords n data).length) (hn : i < n) :
    (readRecords n data)[i]? =
      Bond.read? (slice (i * Bond.encodedLength) Bond.encodedLength data) := by
  induction n generalizing data i with
  | zero => exact absurd hn (Nat.not_lt_zero i)
  | succ n ih =>
    cases hread : Bond.read? data with
    | none =>
      rw [readRecords_eq_nil hread] at hi ⊢
      obtain rfl : i = 0 := Nat.le_zero.1 hi
      rw [Nat.zero_mul, slice, List.drop_zero, Bond.read?_take, hread]
      rfl
    | some bond =>
      obtain ⟨rest, rfl⟩ := Bond.read?_eq_some_iff.1 hread
      rw [readRecords_succ_encode_append] at hi ⊢
      cases i with
      | zero => rw [Nat.zero_mul, slice, List.drop_zero, Bond.read?_take, hread]; rfl
      | succ i =>
        have hplace : (Bond.encode bond).length ≤ (i + 1) * Bond.encodedLength := by
          rw [Bond.length_encode]
          exact Nat.le_mul_of_pos_left _ (Nat.succ_pos i)
        rw [List.getElem?_cons_succ, ih (Nat.le_of_succ_le_succ hi) (Nat.lt_of_succ_lt_succ hn),
          Bytes.slice_append_of_le hplace, Bond.length_encode, Nat.succ_mul, Nat.add_sub_cancel]

/-- As many bonds are looked for as the count byte says, and no more than a keyring can hold. -/
theorem bonds_decode (data : Bytes) :
    (decode data).bonds = readRecords (min (data.headD 0).toNat Settings.maxBonds) data.tail := by
  cases data <;> rfl

theorem length_bonds_decode (data : Bytes) :
    (decode data).bonds.length ≤ min (data.headD 0).toNat Settings.maxBonds := by
  rw [bonds_decode]
  exact length_readRecords_le _ _

/-- The bonds of a keyring that was read are those in the blocks, and the block behind the last of
them holds none if more were looked for. -/
theorem getElem?_bonds_decode (hi : i ≤ (decode data).bonds.length)
    (hn : i < min (data.headD 0).toNat Settings.maxBonds) :
    (decode data).bonds[i]? = Bond.read? (block data i) := by
  rw [bonds_decode] at hi ⊢
  cases data with
  | nil => exact absurd hn (Nat.not_lt_zero i)
  | cons count data => rw [getElem?_readRecords hi hn, block_cons, List.tail_cons]

/-- **As many bonds are read as possible**: the blocks up to there are all legible, and this is so
for no greater number. -/
theorem isGreatest_length_decode (data : Bytes) :
    IsGreatest {k | k ≤ min (data.headD 0).toNat Settings.maxBonds ∧ ∀ i < k, Legible data i}
      (decode data).bonds.length := by
  refine ⟨⟨length_bonds_decode data, fun i hi => ?_⟩, fun k ⟨hk, legible⟩ => ?_⟩
  · rw [legible_iff, ← getElem?_bonds_decode (Nat.le_of_lt hi)
      (Nat.lt_of_lt_of_le hi (length_bonds_decode data)), List.getElem?_eq_getElem hi]
    rfl
  · -- the first block that was not read is not legible, so it does not belong to the others
    refine Nat.le_of_not_lt fun hmore => ?_
    have hnext := legible_iff.1 (legible _ hmore)
    rw [← getElem?_bonds_decode (Nat.le_refl _) (Nat.lt_of_lt_of_le hmore hk),
      List.getElem?_length] at hnext
    exact Bool.false_ne_true hnext

/-! ## Writing -/

/-- The records that fit whole are written, and the rest of the buffer is left alone. -/
theorem buffer_writeRecords (bonds : List Bond) (buffer : Bytes) :
    (writeRecords bonds buffer).buffer =
      (bonds.take (buffer.length / Bond.encodedLength)).flatMap Bond.encode ++
        buffer.drop
          (min bonds.length (buffer.length / Bond.encodedLength) * Bond.encodedLength) := by
  induction bonds generalizing buffer with
  | nil => simp [writeRecords]
  | cons bond bonds ih =>
    by_cases hroom : Bond.encodedLength ≤ buffer.length
    · have hdiv : buffer.length / Bond.encodedLength =
          (buffer.length - Bond.encodedLength) / Bond.encodedLength + 1 :=
        Nat.div_eq_sub_div (by decide) hroom
      simp only [writeRecords, if_pos hroom, ih, hdiv, List.length_drop, List.take_succ_cons,
        List.flatMap_cons, List.append_assoc, List.length_cons, Nat.add_min_add_right,
        List.drop_drop, Nat.succ_mul, Nat.add_comm Bond.encodedLength]
    · have hdiv : buffer.length / Bond.encodedLength = 0 :=
        Nat.div_eq_of_lt (Nat.lt_of_not_le hroom)
      simp [writeRecords, hroom, hdiv]

/-- Writing goes through if all records fit. -/
theorem count_writeRecords (bonds : List Bond) (buffer : Bytes) :
    (writeRecords bonds buffer).count =
      if bonds.length * Bond.encodedLength ≤ buffer.length then
        .ok (bonds.length * Bond.encodedLength)
      else .error .bufferOverflow := by
  induction bonds generalizing buffer with
  | nil => simp [writeRecords]
  | cons bond bonds ih =>
    by_cases hroom : Bond.encodedLength ≤ buffer.length
    · have hall : (bond :: bonds).length * Bond.encodedLength ≤ buffer.length ↔
          bonds.length * Bond.encodedLength ≤ buffer.length - Bond.encodedLength := by
        rw [List.length_cons, Nat.succ_mul]
        omega
      simp only [writeRecords, if_pos hroom, ih, hall, List.length_drop]
      split
      · rw [List.length_cons, Nat.succ_mul, Nat.add_comm]
        rfl
      · rfl
    · have hall : ¬ (bond :: bonds).length * Bond.encodedLength ≤ buffer.length := by
        rw [List.length_cons, Nat.succ_mul]
        omega
      simp only [writeRecords, if_neg hroom, if_neg hall]

/-- Writing goes through if the buffer has room for the count byte and all records. -/
theorem count_writeTo (ring : Keyring) (buffer : Bytes) :
    (ring.writeTo buffer).count =
      if 1 + ring.bonds.length * Bond.encodedLength ≤ buffer.length then
        .ok (1 + ring.bonds.length * Bond.encodedLength)
      else .error .bufferOverflow := by
  cases buffer with
  | nil => simp [writeTo]
  | cons b buffer =>
    simp only [writeTo, count_writeRecords, List.length_cons, Nat.add_comm 1,
      Nat.add_le_add_iff_right]
    split <;> rfl

/-- The count byte and the records that fit whole are written, and the rest of the buffer is left
alone. -/
theorem buffer_writeTo_cons (ring : Keyring) (h : buffer ≠ []) :
    (ring.writeTo buffer).buffer = UInt8.ofNat ring.bonds.length ::
      ((ring.bonds.take (fitting ring.bonds.length buffer.length)).flatMap Bond.encode ++
        buffer.drop (1 + fitting ring.bonds.length buffer.length * Bond.encodedLength)) := by
  cases buffer with
  | nil => exact absurd rfl h
  | cons b buffer =>
    rw [take_fitting]
    simp only [writeTo, buffer_writeRecords, fitting, List.length_cons, Nat.add_sub_cancel,
      Nat.add_comm 1, List.drop_succ_cons]

/-! ## Reading back what was written -/

/-- From records that were cut off, as many bonds come back as there are whole records. -/
theorem readRecords_take_flatMap_encode (bonds : List Bond) (m : Nat) (rest : Bytes) :
    readRecords bonds.length ((bonds.flatMap Bond.encode ++ rest).take m) =
      bonds.take (m / Bond.encodedLength) := by
  induction bonds generalizing m with
  | nil => simp [readRecords]
  | cons bond bonds ih =>
    rw [List.flatMap_cons, List.append_assoc, List.length_cons]
    by_cases hwhole : Bond.encodedLength ≤ m
    · have hdiv : m / Bond.encodedLength = (m - Bond.encodedLength) / Bond.encodedLength + 1 :=
        Nat.div_eq_sub_div (by decide) hwhole
      have htake : bond.encode.take m = bond.encode :=
        List.take_of_length_le (by rwa [Bond.length_encode])
      rw [List.take_append, htake, readRecords_succ_encode_append, Bond.length_encode, ih, hdiv,
        List.take_succ_cons]
    · have hshort : ((bond.encode ++ (bonds.flatMap Bond.encode ++ rest)).take m).length <
          Bond.encodedLength := by
        rw [List.length_take]
        omega
      rw [readRecords_eq_nil (Bond.read?_eq_none_of_length_lt hshort),
        Nat.div_eq_of_lt (Nat.lt_of_not_le hwhole), List.take_zero]

/-- A keyring that is not overfull has a count byte. -/
theorem toNat_count (fits : ring.bonds.length ≤ Settings.maxBonds) :
    (UInt8.ofNat ring.bonds.length).toNat = ring.bonds.length := by
  have hmax : Settings.maxBonds = 4 := rfl
  rw [UInt8.toNat_ofNat']
  omega

/-- From a stored form that was cut off, as many bonds come back as there are whole records. -/
theorem decode_take_buffer_writeTo (fits : ring.bonds.length ≤ Settings.maxBonds)
    (hroom : 1 + ring.bonds.length * Bond.encodedLength ≤ buffer.length) (m : Nat) :
    decode ((ring.writeTo buffer).buffer.take m) =
      ⟨ring.bonds.take (fitting ring.bonds.length m), false⟩ := by
  have hall : fitting ring.bonds.length buffer.length = ring.bonds.length := by
    refine Nat.min_eq_left ((Nat.le_div_iff_mul_le (by decide)).2 ?_)
    omega
  rw [buffer_writeTo_cons ring (List.ne_nil_of_length_pos (by omega)), hall, List.take_length]
  cases m with
  | zero => simp [decode, fitting]
  | succ m =>
    rw [List.take_succ_cons, decode, toNat_count fits, Nat.min_eq_left fits,
      readRecords_take_flatMap_encode, take_fitting, Nat.add_sub_cancel]

/-- **Every stored form is read and written as far as it goes.**  From any byte string, and whatever
was there before, a clean keyring is read that holds the bonds of the first blocks, as many as are
all complete and readable within the count and the room of a keyring.  A keyring is written to every
buffer that is long enough.  To a shorter one it is written too, as far as whole records fit behind
the count, and the fault is reported; the bytes behind are never touched.  From the first bytes of a
stored form, however many, the first bonds come back, as many as there are whole records. -/
theorem stored_form_read_and_written (previous ring : Keyring)
    (fits : ring.bonds.length ≤ Settings.maxBonds) (data buffer : Bytes) :
    ((previous.perform (.decode data)).dirty = false ∧
      IsGreatest {k | k ≤ min (data.headD 0).toNat Settings.maxBonds ∧ ∀ i < k, Legible data i}
        (previous.perform (.decode data)).bonds.length ∧
      ∀ i < (previous.perform (.decode data)).bonds.length,
        (previous.perform (.decode data)).bonds[i]? = Bond.read? (block data i)) ∧
    ((ring.writeTo buffer).count =
        (if 1 + ring.bonds.length * Bond.encodedLength ≤ buffer.length then
          .ok (1 + ring.bonds.length * Bond.encodedLength)
        else .error .bufferOverflow) ∧
      (buffer = [] → (ring.writeTo buffer).buffer = []) ∧
      (buffer ≠ [] → ∃ count : UInt8, count.toNat = ring.bonds.length ∧
        (ring.writeTo buffer).buffer = count ::
          ((ring.bonds.take (fitting ring.bonds.length buffer.length)).flatMap Bond.encode ++
            buffer.drop (1 + fitting ring.bonds.length buffer.length * Bond.encodedLength)))) ∧
    (1 + ring.bonds.length * Bond.encodedLength ≤ buffer.length → ∀ m,
      previous.perform (.decode ((ring.writeTo buffer).buffer.take m)) =
        ⟨ring.bonds.take (fitting ring.bonds.length m), false⟩) := by
  refine ⟨⟨dirty_decode data, isGreatest_length_decode data, fun i hi => ?_⟩,
    ⟨count_writeTo ring buffer, ?_, fun h => ⟨_, toNat_count fits, buffer_writeTo_cons ring h⟩⟩,
    fun hroom m => decode_take_buffer_writeTo fits hroom m⟩
  · exact getElem?_bonds_decode (Nat.le_of_lt hi)
      (Nat.lt_of_lt_of_le hi (length_bonds_decode data))
  · rintro rfl
    rfl

/-- A stored form with a count that is too high and a damaged kind in the second record. -/
def damaged : Bytes := 9 :: ((bondOfKey 1).encode ++ (bondOfKey 2).encode.set 6 4)

/-- Of the damaged stored form the first bond is read.  Two bonds go whole into a buffer with room
to spare, and only the first of them into a shorter one; of their stored form, cut off in the second
record, the first bond comes back. -/
theorem two_bonds_read_and_written :
    let ring : Keyring := ⟨[bondOfKey 1, bondOfKey 2], true⟩
    (ring.perform (.decode damaged)).bonds.length = 1 ∧
      (ring.writeTo (List.replicate 110 0xEE)).count = .ok 101 ∧
      (ring.writeTo (List.replicate 90 0xEE)).count = .error .bufferOverflow ∧
      (ring.writeTo (List.replicate 90 0xEE)).buffer =
        2 :: ((bondOfKey 1).encode ++ List.replicate 39 0xEE) ∧
      ring.perform (.decode ((ring.writeTo (List.replicate 110 0xEE)).buffer.take 60)) =
        ⟨[bondOfKey 1], false⟩ := by
  intro ring
  obtain ⟨⟨-, ⟨⟨-, hread⟩, hmost⟩, -⟩, ⟨hcount, -, -⟩, hback⟩ :=
    stored_form_read_and_written ring ring (by decide) damaged (List.replicate 110 0xEE)
  obtain ⟨-, ⟨hshort, -, hpart⟩, -⟩ :=
    stored_form_read_and_written ring ring (by decide) damaged (List.replicate 90 0xEE)
  have hone : 1 ≤ (ring.perform (.decode damaged)).bonds.length := by
    refine hmost ⟨by decide +kernel, fun i hi => ?_⟩
    obtain rfl : i = 0 := Nat.lt_one_iff.1 hi
    exact legible_iff.2 (by decide +kernel)
  have hdamaged : ¬ Legible damaged 1 := fun h => absurd (legible_iff.1 h) (by decide +kernel)
  refine ⟨Nat.le_antisymm (Nat.le_of_not_lt fun h => hdamaged (hread 1 h)) hone,
    hcount.trans (if_pos (by decide)), hshort.trans (if_neg (by decide)), ?_,
    hback (by decide) 60⟩
  obtain ⟨count, hvalue, hbuffer⟩ := hpart (by decide)
  obtain rfl : count = 2 := UInt8.toNat_inj.1 hvalue
  rw [hbuffer]
  decide +kernel

end Keyring

end CameraCentral
