import CameraCentral.Proofs.Advert.Grammar
import Mathlib.Data.List.Forall2
import Mathlib.Data.String.Basic

/-!
# Local names

Which name a payload gives depends on its written fields alone.  `Names` says it in three cases, by
which name fields there are: the first name in full counts, wherever it stands, the first shortened
name counts if there is no name in full, and without any name the answer is fixed.  `Displays` says
what the bytes of a name look like to a reader: the first 32 of them, one character each, with a
question mark for everything that cannot be printed.

The name of a payload is the one text that its fields name (`deviceName_exact`), and it can be
shown as it is, whatever came over the air.
-/

namespace CameraCentral

namespace Advert

/-! ## Characters -/

/-- A character shows a byte: printable ASCII shows itself, and a question mark everything else. -/
def Shows (b : UInt8) (c : Char) : Prop :=
  if 0x20 ≤ b ∧ b ≤ 0x7E then c.toNat = b.toNat else c = '?'

/-- A character can be printed, and is ASCII. -/
def Printable (c : Char) : Prop := 0x20 ≤ c.toNat ∧ c.toNat ≤ 0x7E

instance (c : Char) : Decidable (Printable c) := inferInstanceAs (Decidable (_ ∧ _))

/-- A text displays the bytes of a name: the first 32 of them, one character each. -/
def Displays (payload : Bytes) (text : String) : Prop :=
  List.Forall₂ Shows (payload.take 32) text.toList

variable {b : UInt8} {c : Char} {payload data : Bytes} {text : String} {fields : List Field}

theorem toNat_ofNat_byte (b : UInt8) : (Char.ofNat b.toNat).toNat = b.toNat := by
  have hb := b.toNat_lt
  have hvalid : b.toNat.isValidChar := .inl (by omega)
  rw [Char.ofNat, dif_pos hvalid]
  rfl

/-- There is one character that shows a byte. -/
theorem shows_iff : Shows b c ↔ nameChar b = c := by
  unfold Shows nameChar
  split
  · constructor
    · intro h
      rw [← h]
      exact Char.ofNat_toNat c
    · rintro rfl
      exact toNat_ofNat_byte b
  · exact eq_comm

theorem Shows.printable (shown : Shows b c) : Printable c := by
  unfold Shows at shown
  split at shown
  · next hb =>
    rw [Printable, shown]
    exact ⟨UInt8.le_iff_toNat_le.1 hb.1, UInt8.le_iff_toNat_le.1 hb.2⟩
  · rw [shown]
    exact ⟨by decide, by decide⟩

/-- There is one text that displays the bytes of a name. -/
theorem displays_iff : Displays payload text ↔ spell payload = text := by
  have hshows : Shows = fun b c => nameChar b = c := by
    funext b c
    exact propext shows_iff
  rw [Displays, hshows, ← List.forall₂_map_left_iff (R := Eq), List.forall₂_eq_eq_eq,
    ← String.toList_inj, spell, String.toList_ofList]
  rfl

/-- A displayed name has a character for each of its bytes, up to 32. -/
theorem Displays.length_eq (displayed : Displays payload text) :
    text.length = min 32 payload.length := by
  rw [← String.length_toList, ← List.Forall₂.length_eq displayed, List.length_take]

theorem Displays.printable (displayed : Displays payload text) :
    ∀ c ∈ text.toList, Printable c := by
  unfold Displays at displayed
  generalize text.toList = chars at displayed
  generalize payload.take 32 = bytes at displayed
  induction displayed with
  | nil => simp
  | cons shown _ ih => exact List.forall_mem_cons.2 ⟨shown.printable, ih⟩

/-- In memory a printable text takes one byte a character. -/
theorem utf8ByteSize_of_printable (printable : ∀ c ∈ text.toList, Printable c) :
    text.utf8ByteSize = text.length := by
  rw [← String.length_toList, ← String.ofList_toList (s := text), String.utf8ByteSize_ofList,
    String.toList_ofList]
  generalize text.toList = chars at printable
  induction chars with
  | nil => rfl
  | cons c chars ih =>
    obtain ⟨hc, hchars⟩ := List.forall_mem_cons.1 printable
    have hsize : c.utf8Size = 1 := Char.utf8Size_eq_one_iff.2 (by
      rw [UInt32.le_iff_toNat_le]
      exact Nat.le_trans hc.2 (by decide))
    rw [String.utf8Len, ih hchars, hsize, List.length_cons]

/-! ## Which name counts -/

/-- A text is the name that fields give. -/
inductive Names (fields : List Field) : String → Prop
  /-- The first name in full counts, whatever stands in front of it. -/
  | complete {before after : List Field} {payload : Bytes} {text : String}
      (split : fields = before ++ ⟨0x09, payload⟩ :: after)
      (first : ∀ field ∈ before, field.kind ≠ 0x09)
      (displayed : Displays payload text) : Names fields text
  /-- Without a name in full, the first shortened name counts. -/
  | shortened {before after : List Field} {payload : Bytes} {text : String}
      (incomplete : ∀ field ∈ fields, field.kind ≠ 0x09)
      (split : fields = before ++ ⟨0x08, payload⟩ :: after)
      (first : ∀ field ∈ before, field.kind ≠ 0x08)
      (displayed : Displays payload text) : Names fields text
  /-- Without any name, there is a text that says so. -/
  | unknown (incomplete : ∀ field ∈ fields, field.kind ≠ 0x09)
      (nameless : ∀ field ∈ fields, field.kind ≠ 0x08) : Names fields "Unknown"

/-- The payload of the first field of a kind. -/
theorem payload_find?_eq_some_iff {kind : UInt8} :
    (fields.find? fun field => field.kind = kind).map Field.payload = some payload ↔
      ∃ before after, fields = before ++ ⟨kind, payload⟩ :: after ∧
        ∀ field ∈ before, field.kind ≠ kind := by
  simp only [Option.map_eq_some_iff, List.find?_eq_some_iff_append, decide_eq_true_eq,
    Bool.not_eq_true', decide_eq_false_iff_not]
  constructor
  · rintro ⟨⟨kind, payload⟩, ⟨rfl, before, after, hsplit, hfirst⟩, rfl⟩
    exact ⟨before, after, hsplit, hfirst⟩
  · rintro ⟨before, after, hsplit, hfirst⟩
    exact ⟨⟨kind, payload⟩, ⟨rfl, before, after, hsplit, hfirst⟩, rfl⟩

theorem payload_find?_eq_none_iff {kind : UInt8} :
    (fields.find? fun field => field.kind = kind).map Field.payload = none ↔
      ∀ field ∈ fields, field.kind ≠ kind := by
  simp

/-- A name in full is looked for first, and a shortened one after that. -/
theorem nameBytes?_eq (fields : List Field) :
    nameBytes? fields =
      ((fields.find? fun field => field.kind = 0x09).map Field.payload <|>
        (fields.find? fun field => field.kind = 0x08).map Field.payload) := by
  have hkinds : Field.completeName = 0x09 ∧ Field.shortenedName = 0x08 := ⟨rfl, rfl⟩
  rw [nameBytes?, hkinds.1, hkinds.2]
  cases fields.find? fun field => field.kind = 0x09 <;> rfl

/-- The name of a payload is what its fields name. -/
theorem names_deviceName (data : Bytes) : Names (Field.parse data) (deviceName data) := by
  rw [deviceName, nameBytes?_eq]
  cases hcomplete : ((Field.parse data).find? fun field => field.kind = 0x09).map Field.payload with
  | some payload =>
    obtain ⟨before, after, split, first⟩ := payload_find?_eq_some_iff.1 hcomplete
    exact .complete split first (displays_iff.2 rfl)
  | none =>
    have incomplete := payload_find?_eq_none_iff.1 hcomplete
    cases hshort : ((Field.parse data).find? fun field => field.kind = 0x08).map Field.payload with
    | some payload =>
      obtain ⟨before, after, split, first⟩ := payload_find?_eq_some_iff.1 hshort
      exact .shortened incomplete split first (displays_iff.2 rfl)
    | none => exact .unknown incomplete (payload_find?_eq_none_iff.1 hshort)

/-- Fields name nothing else than what is the name of their payload. -/
theorem deviceName_of_names (names : Names (Field.parse data) text) : deviceName data = text := by
  rw [deviceName, nameBytes?_eq]
  cases names with
  | complete split first displayed =>
    rw [payload_find?_eq_some_iff.2 ⟨_, _, split, first⟩]
    exact displays_iff.1 displayed
  | shortened incomplete split first displayed =>
    rw [payload_find?_eq_none_iff.2 incomplete, payload_find?_eq_some_iff.2 ⟨_, _, split, first⟩]
    exact displays_iff.1 displayed
  | unknown incomplete nameless =>
    rw [payload_find?_eq_none_iff.2 incomplete, payload_find?_eq_none_iff.2 nameless]
    rfl

/-- Every name can be shown as it is. -/
theorem Names.printable (names : Names fields text) : ∀ c ∈ text.toList, Printable c := by
  cases names with
  | complete _ _ displayed => exact displayed.printable
  | shortened _ _ _ displayed => exact displayed.printable
  | unknown _ _ => simp [Printable]

/-- **The name of a payload is the one that its written fields give.**  They are all the fields that
can be read from the front of it, up to where it ends.  What displays the bytes of a name has as
many characters as the name has bytes, up to 32, and takes one byte in memory for each; and every
name is printable. -/
theorem deviceName_exact (data : Bytes) :
    (∃ fields bytes rest, data = bytes ++ rest ∧ Field.Written fields bytes ∧ Field.Ends rest ∧
      (∀ others front behind, data = front ++ behind → Field.Written others front →
        others <+: fields) ∧
      ∀ text, deviceName data = text ↔ Names fields text) ∧
    (∀ payload text, Displays payload text →
      text.length = min 32 payload.length ∧ text.utf8ByteSize = text.length) ∧
    ∀ c ∈ (deviceName data).toList, Printable c := by
  refine ⟨?_, ?_, (names_deviceName data).printable⟩
  · obtain ⟨bytes, rest, hdata, written, ends⟩ := Field.exists_written data
    refine ⟨Field.parse data, bytes, rest, hdata, written, ends, ?_,
      fun text => ⟨?_, deviceName_of_names⟩⟩
    · rintro others front behind rfl hfront
      rw [hfront.parse_append]
      exact List.prefix_append others _
    · rintro rfl
      exact names_deviceName data
  · intro payload text displayed
    exact ⟨displayed.length_eq, utf8ByteSize_of_printable displayed.printable⟩

-- A name in full stands behind a shortened one here.
example : deviceName [0x03, 0x08, 0x47, 0x50, 0x04, 0x09, 0x43, 0x07, 0x31] = "C?1" := by decide

end Advert

end CameraCentral
