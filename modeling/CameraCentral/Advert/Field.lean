import CameraCentral.Bytes

/-!
# Advertising fields

An advertising payload is a sequence of fields.  Each field starts with a length byte, which
counts the bytes that follow it: a kind and the field's own payload.  A payload is well formed up
to the first length byte that is zero or that promises more bytes than are left; whatever stands
from there on carries no meaning.

`Field.encode` writes a field and `Field.parse` reads the fields at the front of a payload.  The
parser walks the payload once from left to right: `Field.parseAfter skip` reads the fields that
start after the next `skip` bytes, so the recursion is on the payload itself.
-/

namespace CameraCentral

namespace Advert

/-- One field of an advertising payload. -/
structure Field where
  /-- What the payload of the field means. -/
  kind : UInt8
  /-- The bytes of the field after its kind. -/
  payload : Bytes
deriving DecidableEq, Repr

namespace Field

/-! ## The kinds that the central reads -/

/-- A list of 16-bit service identifiers that may not be all there are. -/
def incompleteServices : UInt8 := 0x02

/-- The list of all 16-bit service identifiers. -/
def completeServices : UInt8 := 0x03

/-- A shortened local name. -/
def shortenedName : UInt8 := 0x08

/-- The local name in full. -/
def completeName : UInt8 := 0x09

/-- Data of a service, which is named by a 16-bit identifier in front. -/
def serviceData : UInt8 := 0x16

/-! ## Writing and reading -/

/-- A field as it stands in a payload: length, kind, payload.  The length is right for payloads of
at most 254 bytes. -/
def encode (field : Field) : Bytes :=
  UInt8.ofNat (field.payload.length + 1) :: field.kind :: field.payload

/-- The fields that start after the first `skip` bytes of a payload. -/
def parseAfter : Nat → Bytes → List Field
  | _, [] => []
  | skip + 1, _ :: rest => parseAfter skip rest
  | 0, length :: rest =>
    match rest.take length.toNat with
    | [] => []
    | kind :: payload =>
      if length.toNat ≤ rest.length then ⟨kind, payload⟩ :: parseAfter length.toNat rest else []

/-- The fields at the front of a payload. -/
def parse (data : Bytes) : List Field := parseAfter 0 data

/-! ## Laws of the parser -/

@[simp] theorem parse_nil : parse [] = [] := rfl

/-- Skipping bytes and reading on is reading what is left without them. -/
theorem parseAfter_eq (skip : Nat) (data : Bytes) :
    parseAfter skip data = parse (data.drop skip) := by
  induction data generalizing skip with
  | nil => cases skip <;> rfl
  | cons b rest ih =>
    cases skip with
    | zero => rfl
    | succ skip => simp only [parseAfter, ih, List.drop_succ_cons]

/-- A zero length byte ends the payload. -/
@[simp] theorem parse_zero_cons (rest : Bytes) : parse (0 :: rest) = [] := by
  simp [parse, parseAfter]

/-- A length byte that promises more bytes than are left ends the payload. -/
theorem parse_cons_of_length_lt {length : UInt8} {rest : Bytes} (h : rest.length < length.toNat) :
    parse (length :: rest) = [] := by
  simp only [parse, parseAfter]
  split
  · rfl
  · rw [if_neg (by omega)]

/-- A field at the front of a payload is read, and reading goes on behind it. -/
@[simp] theorem parse_encode_append {field : Field} (h : field.payload.length < 255)
    (rest : Bytes) : parse (field.encode ++ rest) = field :: parse rest := by
  obtain ⟨kind, payload⟩ := field
  have hlen : (UInt8.ofNat (payload.length + 1)).toNat = payload.length + 1 := by
    simp only [UInt8.toNat_ofNat']
    simp only at h
    omega
  simp only [encode, parse, List.cons_append, parseAfter, hlen, List.take_succ_cons,
    List.take_left', List.length_cons, List.length_append]
  rw [if_pos (by omega), parseAfter_eq]
  simp [parse]

/-- Reading never asks for more than there is: a payload that starts with a whole field is that
field, written out, and the rest. -/
theorem eq_encode_append_of_parse {field : Field} {fields : List Field} {data : Bytes}
    (h : parse data = field :: fields) :
    ∃ rest, data = field.encode ++ rest ∧ field.payload.length < 255 ∧ fields = parse rest := by
  cases data with
  | nil => simp at h
  | cons length tail =>
    simp only [parse, parseAfter] at h
    split at h
    · contradiction
    · rename_i kind payload htake
      split at h
      · rename_i hle
        simp only [List.cons.injEq] at h
        obtain ⟨rfl, rfl⟩ := h
        have hcount : payload.length + 1 = length.toNat := by
          have := congrArg List.length htake
          simp only [List.length_take, List.length_cons] at this
          omega
        refine ⟨tail.drop length.toNat, ?_, ?_, parseAfter_eq _ _⟩
        · have hbyte : UInt8.ofNat (payload.length + 1) = length := by
            rw [hcount]
            exact UInt8.ofNat_toNat
          simp only [encode, hbyte, List.cons_append, List.cons.injEq, true_and]
          rw [← List.cons_append, ← htake, List.take_append_drop]
        · have := length.toNat_lt
          simp only
          omega
      · contradiction

end Field

end Advert

end CameraCentral
