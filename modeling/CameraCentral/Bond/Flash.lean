import CameraCentral.Bond.Keyring

/-!
# Keyrings in flash

Flash keeps the stored form of the keyring as one item under a fixed key.  An item is replaced as
a whole or not at all.  Reading and writing can fail, and then leave the item as it was; a keyring
that cannot be read is loaded as an empty one.
-/

namespace CameraCentral

/-- The flash pages set aside for bonds, and whether they work at the moment. -/
structure Flash where
  /-- The item under the key of the keyring. -/
  item : Option Bytes := none
  readable : Bool := true
  writable : Bool := true
deriving DecidableEq, Repr

/-- How saving a keyring ended. -/
inductive SaveResult where
  /-- Nothing had changed since the last time. -/
  | upToDate
  /-- The item was replaced. -/
  | written
  /-- Flash did not work, and the item is the old one. -/
  | failed
deriving DecidableEq, Repr

namespace Flash

/-- The key of the item that holds the keyring. -/
def keyringKey : UInt8 := 0x01

/-- The size of the largest item that is read.  It leaves room for an item of the greatest size and
some bytes of bookkeeping. -/
def readMax : Nat := Keyring.encodedMax + 16

/-- Puts an item into flash, replacing the one with the same key.  Items under other keys are never
read, so nothing is said about them. -/
def put (flash : Flash) (key : UInt8) (data : Bytes) : Flash :=
  if key = keyringKey then { flash with item := some data } else flash

/-- Erases flash. -/
def wipe (flash : Flash) : Flash := { flash with item := none }

/-- The keyring in flash, clean.  It is empty if there is no item, and also if the item cannot be
read or is too large. -/
def load (flash : Flash) : Keyring :=
  match flash.item with
  | some data =>
    if flash.readable ∧ data.length ≤ readMax then Keyring.decode data else {}
  | none => {}

/-- Stores a keyring that may have changed.  To replace an item, flash has to be read for the place
of the old one and written at another. -/
def save (flash : Flash) (ring : Keyring) : Flash × Keyring × SaveResult :=
  if ring.dirty then
    if flash.readable ∧ flash.writable then
      ({ flash with item := some ring.encode }, ring.markClean, .written)
    else (flash, ring, .failed)
  else (flash, ring, .upToDate)

end Flash

end CameraCentral
