import CameraCentral.Bytes

/-!
# Device addresses

A device is known by six bytes, kept in the order in which they go over the air, and by the kind
of address that they are.  People read the same address from its other end.
-/

namespace CameraCentral

/-- The kinds of device address. -/
inductive AddressKind where
  /-- An address assigned to the device for good. -/
  | publicDevice
  /-- A random address that the device keeps. -/
  | randomStatic
  /-- A random address that a bonded peer can resolve to the identity behind it. -/
  | randomPrivateResolvable
  /-- A random address that says nothing about the device. -/
  | randomPrivateNonResolvable
deriving DecidableEq, Repr

namespace AddressKind

/-- The byte that stands for the kind in stored records. -/
def code : AddressKind → UInt8
  | publicDevice => 0
  | randomStatic => 1
  | randomPrivateResolvable => 2
  | randomPrivateNonResolvable => 3

/-- The kind that a byte stands for, if any. -/
def ofCode? (code : UInt8) : Option AddressKind :=
  if code = 0 then some publicDevice
  else if code = 1 then some randomStatic
  else if code = 2 then some randomPrivateResolvable
  else if code = 3 then some randomPrivateNonResolvable
  else none

/-- The name of the kind. -/
def name : AddressKind → String
  | publicDevice => "Public"
  | randomStatic => "RandomStatic"
  | randomPrivateResolvable => "RandomPrivateResolvable"
  | randomPrivateNonResolvable => "RandomPrivateNonResolvable"

@[simp] theorem ofCode?_code (kind : AddressKind) : ofCode? kind.code = some kind := by
  cases kind <;> rfl

/-- A byte stands for a kind only if it is the code of that kind. -/
theorem ofCode?_eq_some_iff {code : UInt8} {kind : AddressKind} :
    ofCode? code = some kind ↔ code = kind.code := by
  constructor
  · intro h
    unfold ofCode? at h
    split at h <;> try split at h <;> try split at h <;> try split at h
    all_goals simp_all
    all_goals subst h; rfl
  · rintro rfl
    exact ofCode?_code kind

end AddressKind

/-- The address of a device. -/
structure Address where
  /-- The kind of the address. -/
  kind : AddressKind
  /-- The bytes, least significant first as they go over the air. -/
  bytes : Vector UInt8 6
deriving DecidableEq, Repr

namespace Address

/-- The address with these bytes, least significant first. -/
def ofBytes (kind : AddressKind) (a b c d e f : UInt8) : Address := ⟨kind, #v[a, b, c, d, e, f]⟩

/-- The address as people read it: the most significant byte first, two upper-case digits a byte,
and a colon between bytes. -/
def text (address : Address) : String :=
  ":".intercalate
    (address.bytes.toList.reverse.map fun b => String.ofList ((Bytes.hexDigits b).map Char.toUpper))

end Address

end CameraCentral
