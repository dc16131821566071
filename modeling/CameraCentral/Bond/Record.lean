import CameraCentral.Address
import CameraCentral.Fault

/-!
# Bonds

A bond holds the keys that were agreed with a camera when it was paired.  Stored, it is a record
of exactly fifty bytes: the six bytes of the address and its kind, the long-term key and its
flags, the diversifier and the random number that name the key, and the key that resolves private
addresses.

`Bond.encode` writes the record and `Bond.decode?` reads one off the front of a byte string.
`decode?_eq_some_iff` says that the reader accepts exactly what the writer produces.
-/

namespace CameraCentral

/-- The keys of one bonded camera. -/
structure Bond where
  /-- The address that identifies the camera. -/
  address : Address
  /-- The long-term key. -/
  longTermKey : Vector UInt8 16
  /-- How the long-term key was made. -/
  keyFlags : UInt8
  /-- With `random`, names the long-term key. -/
  diversifier : UInt16
  /-- With `diversifier`, names the long-term key. -/
  random : Vector UInt8 8
  /-- The key that resolves private addresses of the camera. -/
  identityKey : Vector UInt8 16
deriving DecidableEq, Repr

/-- What became of a buffer that something was written to: how many bytes were written, or why the
writing stopped, and the buffer as it is now. -/
structure Written where
  count : Except Fault Nat
  buffer : Bytes

namespace Bond

/-- The number of bytes of a stored bond. -/
def encodedLength : Nat := 50

/-- The record of a bond. -/
def encode (bond : Bond) : Bytes :=
  bond.address.bytes.toList ++ bond.address.kind.code ::
    (bond.longTermKey.toList ++ bond.keyFlags ::
      (Bytes.ofWord bond.diversifier ++ (bond.random.toList ++ bond.identityKey.toList)))

/-- Reads the record at the front of a byte string, and leaves what follows it.  There is none if
the byte string is too short, or if no kind of address has the code that stands there. -/
def decode? (data : Bytes) : Option (Bond × Bytes) := do
  let (bytes, data) ← Bytes.block? 6 data
  let (code, data) ← Bytes.byte? data
  let kind ← AddressKind.ofCode? code
  let (longTermKey, data) ← Bytes.block? 16 data
  let (keyFlags, data) ← Bytes.byte? data
  let (diversifier, data) ← Bytes.word? data
  let (random, data) ← Bytes.block? 8 data
  let (identityKey, data) ← Bytes.block? 16 data
  return (⟨⟨kind, bytes⟩, longTermKey, keyFlags, diversifier, random, identityKey⟩, data)

@[simp] theorem length_encode (bond : Bond) : bond.encode.length = encodedLength := by
  simp [encode, encodedLength]

/-- A record in front of a byte string is read back. -/
@[simp] theorem decode?_encode_append (bond : Bond) (rest : Bytes) :
    decode? (bond.encode ++ rest) = some (bond, rest) := by
  simp [decode?, encode, Bytes.byte?]

/-- Reading accepts exactly what writing produces. -/
theorem decode?_eq_some_iff {data rest : Bytes} {bond : Bond} :
    decode? data = some (bond, rest) ↔ data = bond.encode ++ rest := by
  constructor
  · intro h
    simp only [decode?, Option.bind_eq_bind, Option.bind_eq_some_iff, Prod.exists,
      Bytes.block?_eq_some_iff, Bytes.byte?_eq_some_iff, Bytes.word?_eq_some_iff,
      AddressKind.ofCode?_eq_some_iff] at h
    obtain ⟨bytes, _, rfl, code, _, rfl, kind, rfl, ltk, _, rfl, flags, _, rfl, ediv, _, rfl,
      rand, _, rfl, irk, _, rfl, h⟩ := h
    cases h
    simp [encode]
  · rintro rfl
    exact decode?_encode_append bond rest

/-- Writes the record over the front of a buffer.  A buffer that is too short is left alone. -/
def writeTo (bond : Bond) (buffer : Bytes) : Written :=
  if encodedLength ≤ buffer.length then
    ⟨.ok encodedLength, bond.encode ++ buffer.drop encodedLength⟩
  else ⟨.error .bufferOverflow, buffer⟩

end Bond

end CameraCentral
