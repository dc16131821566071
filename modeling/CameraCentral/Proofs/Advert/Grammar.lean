import CameraCentral.Advert.Report

/-!
# The grammar of advertising payloads

What a well-formed payload looks like is said here without the parser.  `Field.Written` is the
written form of a list of fields, byte for byte, and `Field.Ends` says that no field starts at a
place.  Every payload is written fields up to a place where it ends, in exactly one way, and these
fields are the ones that the parser reads (`Field.parse_eq_iff`).  So a payload is recognised as a
camera's exactly if it starts with written fields the last of which announces the camera service,
and nothing behind the place where it ends has a say in it (`isCamera_iff_grammar`).

The parser takes lists apart and could not reach outside of a payload if it tried.  A reader that
goes by places could, so there is one here as well: `Field.readAt` asks for bytes by their places,
and asking for a byte that is not there is an error.  It never comes to that, and it finds the same
fields.
-/

namespace CameraCentral

/-! ## Words of a byte string -/

namespace Bytes

theorem word_inj {low high low' high' : UInt8} :
    word low high = word low' high' ↔ low = low' ∧ high = high' := by
  constructor
  · intro h
    have hbytes := congrArg ofWord h
    rwa [ofWord_word, ofWord_word, List.cons.injEq, List.cons.injEq, and_iff_left rfl] at hbytes
  · rintro ⟨rfl, rfl⟩
    rfl

/-- A word is one of a byte string if its two bytes stand next to each other, the first at an even
place. -/
theorem word_mem_words_iff {low high : UInt8} {data : Bytes} :
    word low high ∈ words data ↔
      ∃ i, data[2 * i]? = some low ∧ data[2 * i + 1]? = some high := by
  fun_induction words data with
  | case1 first second rest ih =>
    rw [List.mem_cons, word_inj, ih]
    constructor
    · rintro (⟨rfl, rfl⟩ | ⟨i, hlow, hhigh⟩)
      · exact ⟨0, rfl, rfl⟩
      · exact ⟨i + 1, hlow, hhigh⟩
    · rintro ⟨i, hlow, hhigh⟩
      cases i with
      | zero => exact .inl ⟨(Option.some.inj hlow).symm, (Option.some.inj hhigh).symm⟩
      | succ i => exact .inr ⟨i, hlow, hhigh⟩
  | case2 data hshort =>
    -- A single byte at the end belongs to no word.
    refine iff_of_false List.not_mem_nil ?_
    rintro ⟨i, -, hhigh⟩
    match data, hshort with
    | [], _ => simp at hhigh
    | [_], _ => simp at hhigh
    | first :: second :: rest, hshort => exact hshort first second rest rfl

theorem word_mem_take_one_words_iff {low high : UInt8} {data : Bytes} :
    word low high ∈ (words data).take 1 ↔ [low, high] <+: data := by
  match data with
  | [] => simp [words]
  | [_] => simp [words]
  | first :: second :: rest => simp [words, word_inj]

end Bytes

namespace Advert

namespace Field

/-! ## Written fields -/

/-- The written form of fields, one behind the other: each is a length byte and exactly as many
bytes as that says, its kind first. -/
inductive Written : List Field → Bytes → Prop
  | nil : Written [] []
  | cons {length kind : UInt8} {payload bytes : Bytes} {fields : List Field}
      (counted : length.toNat = (kind :: payload).length) (written : Written fields bytes) :
      Written (⟨kind, payload⟩ :: fields) (length :: kind :: payload ++ bytes)

/-- No field starts here: nothing is left, the length byte is zero, or it promises more bytes than
are left. -/
inductive Ends : Bytes → Prop
  | empty : Ends []
  | zero (behind : Bytes) : Ends (0 :: behind)
  | overrun {length : UInt8} {behind : Bytes} (short : behind.length < length.toNat) :
      Ends (length :: behind)

variable {length kind : UInt8} {payload data bytes rest : Bytes} {field : Field}
  {fields others : List Field}

theorem encode_eq (counted : length.toNat = (kind :: payload).length) :
    encode ⟨kind, payload⟩ = length :: kind :: payload := by
  rw [List.length_cons] at counted
  rw [encode, ← counted, UInt8.ofNat_toNat]

/-- A written field in front is read, and reading goes on behind it. -/
theorem parse_cons_append (counted : length.toNat = (kind :: payload).length) (rest : Bytes) :
    parse (length :: kind :: payload ++ rest) = ⟨kind, payload⟩ :: parse rest := by
  have hshort : payload.length < 255 := by
    have := length.toNat_lt
    rw [List.length_cons] at counted
    omega
  rw [← encode_eq counted]
  exact @parse_encode_append ⟨kind, payload⟩ hshort rest

/-- Written fields in front are read, and reading goes on behind them. -/
theorem Written.parse_append (written : Written fields bytes) (rest : Bytes) :
    parse (bytes ++ rest) = fields ++ parse rest := by
  induction written with
  | nil => rfl
  | cons counted _ ih =>
    rw [List.append_assoc, parse_cons_append counted, ih, List.cons_append]

/-- Nothing is read exactly where the payload ends. -/
theorem parse_eq_nil_iff : parse data = [] ↔ Ends data := by
  constructor
  · intro h
    cases data with
    | nil => exact .empty
    | cons length behind =>
      by_cases hzero : length = 0
      · subst hzero
        exact .zero behind
      by_cases hshort : behind.length < length.toNat
      · exact .overrun hshort
      -- Otherwise a field would have been read.
      have hpos : 0 < length.toNat := Nat.pos_of_ne_zero fun h => hzero (UInt8.toNat_inj.1 h)
      cases behind with
      | nil => simp at hshort; omega
      | cons kind behind =>
        have hsplit := (List.take_append_drop (length.toNat - 1) behind).symm
        have hcounted : length.toNat = (kind :: behind.take (length.toNat - 1)).length := by
          simp only [List.length_cons, List.length_take] at hshort ⊢
          omega
        rw [hsplit] at h
        have hread := parse_cons_append hcounted (behind.drop (length.toNat - 1))
        rw [List.cons_append, List.cons_append] at hread
        rw [hread] at h
        contradiction
  · intro h
    cases h with
    | empty => rfl
    | zero behind => exact parse_zero_cons behind
    | overrun short => exact parse_cons_of_length_lt short

/-- Every payload is the written form of the fields that are read, and a rest where it ends. -/
theorem exists_written (data : Bytes) :
    ∃ bytes rest, data = bytes ++ rest ∧ Written (parse data) bytes ∧ Ends rest := by
  generalize hfields : parse data = fields
  induction fields generalizing data with
  | nil => exact ⟨[], data, rfl, .nil, parse_eq_nil_iff.1 hfields⟩
  | cons field fields ih =>
    obtain ⟨kind, payload⟩ := field
    obtain ⟨behind, rfl, hshort, hbehind⟩ := eq_encode_append_of_parse hfields
    obtain ⟨bytes, rest, rfl, written, ends⟩ := ih behind hbehind.symm
    have hcounted : (UInt8.ofNat (payload.length + 1)).toNat = (kind :: payload).length := by
      simp only [UInt8.toNat_ofNat', List.length_cons]
      simp only at hshort
      omega
    refine ⟨encode ⟨kind, payload⟩ ++ bytes, rest, (List.append_assoc ..).symm, ?_, ends⟩
    exact .cons hcounted written

/-- The fields that are read are the ones that the payload is the written form of, up to where it
ends. -/
theorem parse_eq_iff :
    parse data = fields ↔
      ∃ bytes rest, data = bytes ++ rest ∧ Written fields bytes ∧ Ends rest := by
  constructor
  · rintro rfl
    exact exists_written data
  · rintro ⟨bytes, rest, rfl, written, ends⟩
    rw [written.parse_append, parse_eq_nil_iff.2 ends, List.append_nil]

/-- Written fields can be cut between any two of them. -/
theorem written_append_iff :
    Written (fields ++ others) data ↔
      ∃ bytes rest, data = bytes ++ rest ∧ Written fields bytes ∧ Written others rest := by
  constructor
  · intro h
    induction fields generalizing data with
    | nil => exact ⟨[], data, rfl, .nil, h⟩
    | cons field fields ih =>
      cases h with
      | cons counted written =>
        obtain ⟨bytes, rest, rfl, hbytes, hrest⟩ := ih written
        exact ⟨_, rest, (List.append_assoc ..).symm, .cons counted hbytes, hrest⟩
  · rintro ⟨bytes, rest, rfl, hbytes, hrest⟩
    induction hbytes with
    | nil => exact hrest
    | cons counted _ ih =>
      rw [List.cons_append, List.append_assoc]
      exact .cons counted ih

/-! ## Reading by places -/

/-- The byte at a place of a payload.  Asking for one that is not there is an error, which names
the place. -/
def byteAt (data : Bytes) (place : Nat) : Except Nat UInt8 :=
  match data[place]? with
  | some b => .ok b
  | none => .error place

/-- The bytes of a payload from one place up to another, which may both be right behind the last
byte but not farther, and must not be in the wrong order. -/
def bytesBetween (data : Bytes) (start stop : Nat) : Except Nat Bytes :=
  if start ≤ stop ∧ stop ≤ data.length then .ok ((data.drop start).take (stop - start))
  else .error stop

/-- The field at a place of a payload, and the place behind it. -/
def readAt (data : Bytes) (place : Nat) : Except Nat (Option (Field × Nat)) :=
  match data[place]? with
  | none => .ok none
  | some length =>
    let last := place + length.toNat
    if length = 0 ∨ data.length ≤ last then .ok none
    else do
      let kind ← byteAt data (place + 1)
      let payload ← bytesBetween data (place + 2) (last + 1)
      return some (⟨kind, payload⟩, last + 1)

/-- The fields that are found one behind the other, from a place on, up to where there is none. -/
inductive Found (data : Bytes) : Nat → List Field → Prop
  | none {place : Nat} (read : readAt data place = .ok none) : Found data place []
  | some {place next : Nat} {field : Field} {fields : List Field}
      (read : readAt data place = .ok (some (field, next))) (found : Found data next fields) :
      Found data place (field :: fields)

variable {place : Nat}

/-- Where the payload ends no field is found, and no byte is missed. -/
theorem readAt_of_ends (ends : Ends (data.drop place)) : readAt data place = .ok none := by
  have hhead : data[place]? = (data.drop place)[0]? := by rw [List.getElem?_drop, Nat.add_zero]
  have hlength : data.length - place = (data.drop place).length := List.length_drop.symm
  generalize data.drop place = behind at ends hhead hlength
  unfold readAt
  cases ends with
  | empty => rw [hhead]; rfl
  | zero behind => rw [hhead]; rfl
  | overrun short =>
    rw [List.length_cons] at hlength
    rw [hhead, List.getElem?_cons_zero]
    exact if_pos (.inr (by omega))

/-- A written field is found at its place, and no byte is missed. -/
theorem readAt_of_written (counted : length.toNat = (kind :: payload).length)
    (hdata : data.drop place = length :: kind :: payload ++ rest) :
    readAt data place =
      .ok (some (⟨kind, payload⟩, place + (length :: kind :: payload).length)) := by
  have hbyte : ∀ i, data[place + i]? = (length :: kind :: payload ++ rest)[i]? := by
    intro i
    rw [← List.getElem?_drop, hdata]
  have hlength : data.length = place + (length :: kind :: payload ++ rest).length := by
    have := congrArg List.length hdata
    simp only [List.length_drop, List.cons_append, List.length_cons] at this ⊢
    omega
  rw [List.length_cons] at counted
  have hkind : byteAt data (place + 1) = .ok kind := by
    rw [byteAt, hbyte]
    rfl
  have hpayload : bytesBetween data (place + 2) (place + length.toNat + 1) = .ok payload := by
    have hin : place + 2 ≤ place + length.toNat + 1 ∧ place + length.toNat + 1 ≤ data.length := by
      simp only [List.cons_append, List.length_cons, List.length_append] at hlength
      omega
    have hsize : place + length.toNat + 1 - (place + 2) = payload.length := by omega
    rw [bytesBetween, if_pos hin, hsize, ← List.drop_drop, hdata]
    simp
  have hinside : ¬ (length = 0 ∨ data.length ≤ place + length.toNat) := by
    rintro (rfl | hle)
    · simp at counted
    · simp only [List.cons_append, List.length_cons, List.length_append] at hlength
      omega
  have hhead : data[place]? = some length := hbyte 0
  have hread : readAt data place = .ok (some (⟨kind, payload⟩, place + length.toNat + 1)) := by
    unfold readAt
    simp only [hhead, if_neg hinside, hkind, hpayload]
    rfl
  rw [hread, counted]
  rfl

/-- From every place on, the fields that are found are the ones that the parser reads there. -/
theorem found_parse (data : Bytes) (place : Nat) : Found data place (parse (data.drop place)) := by
  generalize hfields : parse (data.drop place) = fields
  induction fields generalizing place with
  | nil => exact .none (readAt_of_ends (parse_eq_nil_iff.1 hfields))
  | cons field fields ih =>
    obtain ⟨bytes, rest, hdata, written, -⟩ := parse_eq_iff.1 hfields
    cases written with
    | @cons length kind payload bytes _ counted written =>
      rw [List.append_assoc] at hdata
      refine .some (readAt_of_written counted hdata) (ih _ ?_)
      have hbehind : data.drop (place + (length :: kind :: payload).length) = bytes ++ rest := by
        rw [← List.drop_drop, hdata]
        exact List.drop_left
      rw [hdata, parse_cons_append counted] at hfields
      rw [hbehind]
      exact (List.cons.inj hfields).2

/-- No place of a payload, inside or outside of it, makes reading miss a byte. -/
theorem exists_readAt (data : Bytes) (place : Nat) : ∃ found, readAt data place = .ok found := by
  have hfound := found_parse data place
  generalize parse (data.drop place) = fields at hfound
  cases hfound with
  | none read => exact ⟨_, read⟩
  | some read _ => exact ⟨_, read⟩

/-! ## Announcing the camera service -/

/-- The camera service is announced: its two bytes stand at an even place of a list of services, or
in front of service data. -/
def Announces (field : Field) : Prop :=
  ((field.kind = 0x02 ∨ field.kind = 0x03) ∧
    ∃ i, field.payload[2 * i]? = some 0xA6 ∧ field.payload[2 * i + 1]? = some 0xFE) ∨
  (field.kind = 0x16 ∧ [0xA6, 0xFE] <+: field.payload)

theorem announces_iff : field.Announces ↔ Uuid.cameraServiceAlias ∈ field.announced := by
  have halias : Uuid.cameraServiceAlias = Bytes.word 0xA6 0xFE := rfl
  have hannounced : field.announced =
      if field.kind = 0x02 ∨ field.kind = 0x03 then Bytes.words field.payload
      else if field.kind = 0x16 then (Bytes.words field.payload).take 1 else [] := rfl
  rw [halias, hannounced, Announces, ← Bytes.word_mem_words_iff,
    ← Bytes.word_mem_take_one_words_iff]
  by_cases hlist : field.kind = 0x02 ∨ field.kind = 0x03
  · have hdata : field.kind ≠ 0x16 := by
      rintro hkind
      rw [hkind] at hlist
      exact absurd hlist (by decide)
    rw [if_pos hlist, and_iff_right hlist, or_iff_left fun h => hdata h.1]
  · rw [if_neg hlist, or_iff_right fun h => hlist h.1]
    by_cases hdata : field.kind = 0x16
    · rw [if_pos hdata, and_iff_right hdata]
    · rw [if_neg hdata]
      exact iff_of_false (fun h => hdata h.1) List.not_mem_nil

end Field

/-- Nothing behind the place where a payload ends has a say in whether it is a camera's. -/
theorem isCamera_append_iff {fields : List Field} {bytes rest : Bytes}
    (written : Field.Written fields bytes) (ends : Field.Ends rest) :
    IsCamera (bytes ++ rest) ↔ ∃ field ∈ fields, field.Announces := by
  have hparse : Field.parse (bytes ++ rest) = fields :=
    Field.parse_eq_iff.2 ⟨bytes, rest, rfl, written, ends⟩
  simp only [IsCamera, hparse, Field.announces_iff]

/-- A payload is a camera's if it starts with written fields of which the last announces the camera
service. -/
theorem isCamera_iff {data : Bytes} :
    IsCamera data ↔ ∃ fields field bytes rest, data = bytes ++ rest ∧
      Field.Written (fields ++ [field]) bytes ∧ field.Announces := by
  constructor
  · rintro ⟨field, hmem, hannounced⟩
    obtain ⟨before, after, hfields⟩ := List.append_of_mem hmem
    obtain ⟨bytes, rest, rfl, written, -⟩ := Field.parse_eq_iff.1 hfields
    rw [List.append_cons] at written
    obtain ⟨front, back, rfl, hfront, -⟩ := Field.written_append_iff.1 written
    exact ⟨before, field, front, back ++ rest, List.append_assoc .., hfront,
      Field.announces_iff.2 hannounced⟩
  · rintro ⟨fields, field, bytes, rest, rfl, written, hannounces⟩
    refine ⟨field, ?_, Field.announces_iff.1 hannounces⟩
    rw [written.parse_append]
    simp

/-- **A payload is recognised as a camera's by its grammar alone.**  It has to start with written
fields of which the last announces the camera service.  Reading it by places never asks for a byte
that is not there, and finds the fields that the parser reads.  What stands behind a length byte
that is zero or promises too much makes no difference. -/
theorem isCamera_iff_grammar (data : Bytes) :
    (IsCamera data ↔ ∃ fields field bytes rest, data = bytes ++ rest ∧
      Field.Written (fields ++ [field]) bytes ∧ field.Announces) ∧
    (∀ place, ∃ found, Field.readAt data place = .ok found) ∧
    Field.Found data 0 (Field.parse data) ∧
    (∀ fields bytes rest, data = bytes ++ rest → Field.Written fields bytes → Field.Ends rest →
      ∀ other, Field.Ends other → (IsCamera (bytes ++ other) ↔ IsCamera data)) := by
  refine ⟨isCamera_iff, Field.exists_readAt data, Field.found_parse data 0, ?_⟩
  rintro fields bytes rest rfl written ends other hother
  rw [isCamera_append_iff written hother, isCamera_append_iff written ends]

-- The two bytes of the service stand in two fields here.
example : ¬ IsCamera [0x02, 0x03, 0xA6, 0x02, 0x03, 0xFE] := by decide

end Advert

end CameraCentral
