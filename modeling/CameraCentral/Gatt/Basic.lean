import CameraCentral.Fault
import CameraCentral.Uuid

/-!
# The attribute database of a peer

A peer offers services; a service is a range of handles and holds characteristics; a
characteristic has the handle of its declaration, the handle of its value, and descriptors behind
the value.  What a peer reports about an attribute is a declaration; `Service` and
`Characteristic` add the entries that were filed under it since.
-/

namespace CameraCentral

/-! ## Properties of a characteristic -/

/-- What can be done with a characteristic, one bit for each. -/
structure Properties where
  /-- The bits as reported. -/
  bits : UInt8
deriving DecidableEq, Repr

namespace Properties

/-- The value can be broadcast. -/
def broadcast : UInt8 := 0x01

/-- The value can be read. -/
def read : UInt8 := 0x02

/-- The value can be written without an answer. -/
def writeWithoutResponse : UInt8 := 0x04

/-- The value can be written. -/
def write : UInt8 := 0x08

/-- The value can be notified. -/
def notify : UInt8 := 0x10

/-- The value can be indicated. -/
def indicate : UInt8 := 0x20

/-- Properties contain a mask when they have every bit of it. -/
def Contains (properties : Properties) (mask : UInt8) : Prop := properties.bits &&& mask = mask

instance (properties : Properties) (mask : UInt8) : Decidable (properties.Contains mask) :=
  inferInstanceAs (Decidable (properties.bits &&& mask = mask))

/-- The bit that switches notifications on. -/
def enableNotify : UInt16 := 0x0001

/-- The bit that switches indications on. -/
def enableIndicate : UInt16 := 0x0002

/-- What to write to the client configuration of a characteristic with these properties: a bit for
each way in which it can push its value, or `none` if there is no such way. -/
def subscription? (properties : Properties) : Option UInt16 :=
  if properties.Contains notify then
    if properties.Contains indicate then some (enableNotify ||| enableIndicate)
    else some enableNotify
  else if properties.Contains indicate then some enableIndicate
  else none

end Properties

/-! ## Descriptors and characteristics -/

/-- A descriptor of a characteristic. -/
structure Descriptor where
  /-- What the descriptor is. -/
  uuid : Uuid
  /-- The handle of the descriptor. -/
  handle : AttHandle
deriving DecidableEq, Repr

/-- A characteristic as a peer declares it. -/
structure CharacteristicDecl where
  /-- What the characteristic is. -/
  uuid : Uuid
  /-- The handle of the declaration. -/
  declaration : AttHandle
  /-- The handle of the value. -/
  value : AttHandle
  /-- What can be done with the value. -/
  properties : Properties
deriving DecidableEq, Repr

/-- A characteristic with the descriptors found for it. -/
structure Characteristic extends CharacteristicDecl where
  /-- The descriptors, in the order in which they were found. -/
  descriptors : List Descriptor := []
deriving DecidableEq, Repr

/-- The first descriptor that is `uuid`. -/
def Characteristic.find? (characteristic : Characteristic) (uuid : Uuid) : Option Descriptor :=
  characteristic.descriptors.find? fun descriptor => descriptor.uuid ≈ uuid

/-! ## Services -/

/-- A service as a peer declares it: the handles from `first` to `last`. -/
structure ServiceDecl where
  /-- What the service is. -/
  uuid : Uuid
  /-- The first handle of the service. -/
  first : AttHandle
  /-- The last handle of the service. -/
  last : AttHandle
deriving DecidableEq, Repr

/-- A service contains the handles of its range, both ends included. -/
def ServiceDecl.Contains (service : ServiceDecl) (handle : AttHandle) : Prop :=
  service.first ≤ handle ∧ handle ≤ service.last

instance (service : ServiceDecl) (handle : AttHandle) : Decidable (service.Contains handle) :=
  inferInstanceAs (Decidable (service.first ≤ handle ∧ handle ≤ service.last))

/-- A service with the characteristics found in it. -/
structure Service extends ServiceDecl where
  /-- The characteristics, in the order in which they were found. -/
  characteristics : List Characteristic := []
deriving DecidableEq, Repr

namespace Service

/-- The first characteristic that is `uuid`. -/
def find? (service : Service) (uuid : Uuid) : Option Characteristic :=
  service.characteristics.find? fun characteristic => characteristic.uuid ≈ uuid

/-- The last handle that can hold a descriptor of the characteristic whose value is at `value`: the
handle before the next declaration, or the end of the service behind the last one. -/
def descriptorEnd (service : Service) (value : AttHandle) : AttHandle :=
  match ((service.characteristics.map (·.declaration)).filter (value < ·)).min? with
  | some next => next - 1
  | none => service.last

end Service

end CameraCentral
