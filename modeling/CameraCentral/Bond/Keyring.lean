import CameraCentral.Bond.Record

/-!
# The keyring

The keyring is the list of bonds, oldest first.  It holds a bounded number of them: a bond with
the address of an older one takes its place in the list, and a bond with a new address goes to the
end, where the oldest bond makes room if the keyring is full.  `dirty` says whether the keyring
may differ from what was stored last.

Stored, a keyring is a count byte and the records in order.  Reading stops at the first record
that is cut off or unreadable, so the bonds in front of a damaged record survive.
-/

namespace CameraCentral

/-- The bonds of the central. -/
structure Keyring where
  /-- The bonds, oldest first. -/
  bonds : List Bond := []
  /-- Whether the bonds may differ from those that were stored last. -/
  dirty : Bool := false
deriving DecidableEq, Repr

namespace Keyring

/-! ## Looking bonds up -/

/-- The bond of an address. -/
def find? (ring : Keyring) (address : Address) : Option Bond :=
  ring.bonds.find? fun bond => bond.address = address

/-- The oldest bond whose key goes by this name. -/
def findByKeyName? (ring : Keyring) (diversifier : UInt16) (random : Vector UInt8 8) :
    Option Bond :=
  ring.bonds.find? fun bond => bond.diversifier = diversifier ∧ bond.random = random

/-! ## Changing the keyring -/

/-- The bonds that stay when one more is to be appended: all of them while there is room, and all
but the oldest after that. -/
def spared (bonds : List Bond) : List Bond :=
  if bonds.length < Settings.maxBonds then bonds else bonds.tail

/-- Adds a bond.  It replaces the bond of its address where that stands, and goes to the end if
there is none. -/
def insert (ring : Keyring) (bond : Bond) : Keyring where
  bonds :=
    match ring.bonds.findIdx? fun old => old.address = bond.address with
    | some i => ring.bonds.set i bond
    | none => spared ring.bonds ++ [bond]
  dirty := true

/-- Forgets the bond of an address, and says whether there was one. -/
def remove (ring : Keyring) (address : Address) : Keyring × Bool :=
  match ring.find? address with
  | some _ => (⟨ring.bonds.eraseP fun bond => bond.address = address, true⟩, true)
  | none => (ring, false)

/-- The same bonds, taken as stored. -/
def markClean (ring : Keyring) : Keyring := { ring with dirty := false }

/-! ## The stored form -/

/-- The size of the largest stored keyring. -/
def encodedMax : Nat := 1 + Settings.maxBonds * Bond.encodedLength

/-- The stored form: the number of bonds, and their records in order. -/
def encode (ring : Keyring) : Bytes :=
  UInt8.ofNat ring.bonds.length :: ring.bonds.flatMap Bond.encode

/-- Writes records one behind the other over the front of a buffer, as far as they fit whole. -/
def writeRecords : List Bond → Bytes → Written
  | [], buffer => ⟨.ok 0, buffer⟩
  | bond :: bonds, buffer =>
    if Bond.encodedLength ≤ buffer.length then
      let rest := writeRecords bonds (buffer.drop Bond.encodedLength)
      ⟨rest.count.map (Bond.encodedLength + ·), bond.encode ++ rest.buffer⟩
    else ⟨.error .bufferOverflow, buffer⟩

/-- Writes the stored form over the front of a buffer.  If the buffer is too short, the count and
the records that did fit stay in it. -/
def writeTo (ring : Keyring) : Bytes → Written
  | [] => ⟨.error .bufferOverflow, []⟩
  | _ :: buffer =>
    let rest := writeRecords ring.bonds buffer
    ⟨rest.count.map (1 + ·), UInt8.ofNat ring.bonds.length :: rest.buffer⟩

/-- The records at the front of a byte string: at most `n`, up to the first that cannot be read. -/
def readRecords : Nat → Bytes → List Bond
  | 0, _ => []
  | n + 1, data =>
    match Bond.decode? data with
    | none => []
    | some (bond, rest) => bond :: readRecords n rest

/-- The keyring that a stored form holds, clean.  A count above the number of bonds that a keyring
can hold is read as that number. -/
def decode : Bytes → Keyring
  | [] => {}
  | count :: data => { bonds := readRecords (min count.toNat Settings.maxBonds) data }

/-! ## First laws -/

@[simp] theorem dirty_decode (data : Bytes) : (decode data).dirty = false := by
  cases data <;> rfl

theorem length_readRecords_le (n : Nat) (data : Bytes) : (readRecords n data).length ≤ n := by
  induction n generalizing data with
  | zero => simp [readRecords]
  | succ n ih =>
    simp only [readRecords]
    split
    · simp
    · simp [ih]

/-- Records in front of a byte string are read back, as many as are asked for. -/
theorem readRecords_flatMap_encode_append (bonds : List Bond) (n : Nat) (rest : Bytes)
    (h : n ≤ bonds.length) :
    readRecords n (bonds.flatMap Bond.encode ++ rest) = bonds.take n := by
  induction n generalizing bonds with
  | zero => simp [readRecords]
  | succ n ih =>
    cases bonds with
    | nil => simp at h
    | cons bond bonds =>
      simp only [List.length_cons, Nat.add_le_add_iff_right] at h
      simp [readRecords, ih bonds h]

/-- A keyring that is not overfull is read back from its stored form. -/
theorem bonds_decode_encode {ring : Keyring} (h : ring.bonds.length ≤ Settings.maxBonds) :
    (decode ring.encode).bonds = ring.bonds := by
  have hmax : Settings.maxBonds = 4 := rfl
  have hcount : (UInt8.ofNat ring.bonds.length).toNat = ring.bonds.length := by
    simp only [UInt8.toNat_ofNat']
    omega
  have hread := readRecords_flatMap_encode_append ring.bonds ring.bonds.length [] (Nat.le_refl _)
  simp only [List.append_nil, List.take_length] at hread
  simp only [decode, encode, hcount, Nat.min_eq_left h, hread]

end Keyring

end CameraCentral
