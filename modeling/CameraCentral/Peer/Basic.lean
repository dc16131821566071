import CameraCentral.Address
import CameraCentral.Gatt.Table

/-!
# Peers

A peer is a device that is connected, with as much of its database as has been found and with the
place that the walk through the database has reached.
-/

namespace CameraCentral

/-! ## Progress of a walk -/

/-- The place that the walk through a peer's database has reached. -/
inductive Progress where
  | notStarted
  /-- The services are being reported. -/
  | services
  /-- The characteristics of the service at this index are being reported. -/
  | characteristics (service : Nat)
  /-- The descriptors of the characteristic at this index of this service are being reported. -/
  | descriptors (service characteristic : Nat)
  | complete
  | failed
deriving DecidableEq, Repr

namespace Progress

/-- The walk has started and is not over. -/
def InFlight : Progress → Prop
  | services | characteristics _ | descriptors _ _ => True
  | notStarted | complete | failed => False

instance : (progress : Progress) → Decidable progress.InFlight
  | services | characteristics _ | descriptors _ _ => .isTrue trivial
  | notStarted | complete | failed => .isFalse id

/-- A walk that is under way has started. -/
theorem InFlight.ne_notStarted {progress : Progress} (running : progress.InFlight) :
    progress ≠ .notStarted := by
  rintro rfl
  exact running

/-- A walk that is under way is not complete. -/
theorem InFlight.ne_complete {progress : Progress} (running : progress.InFlight) :
    progress ≠ .complete := by
  rintro rfl
  exact running

/-- The text of a place. -/
def text : Progress → String
  | notStarted => "NotStarted"
  | services => "Services"
  | characteristics service =>
    "Characteristics \x7b service: " ++ toString service ++ " \x7d"
  | descriptors service characteristic =>
    "Descriptors \x7b service: " ++ toString service ++ ", characteristic: " ++
      toString characteristic ++ " \x7d"
  | complete => "Complete"
  | failed => "Failed"

end Progress

/-! ## Peers and their databases -/

/-- A connected peer. -/
structure Peer where
  conn : ConnHandle
  address : Address
  /-- The services found, in the order in which they were found. -/
  services : List Service := []
  progress : Progress := .notStarted
deriving DecidableEq, Repr

namespace Peer

/-- The first service that is `uuid`. -/
def findService? (peer : Peer) (uuid : Uuid) : Option Service :=
  peer.services.find? fun service => service.uuid ≈ uuid

/-- The first characteristic, in the order of the services, whose value has this handle. -/
def findCharacteristic? (peer : Peer) (value : AttHandle) : Option Characteristic :=
  (peer.services.flatMap (·.characteristics)).find? fun characteristic =>
    characteristic.value = value

/-- Files a service.  Its range must not be reversed. -/
def addService (peer : Peer) (decl : ServiceDecl) : Except Fault Peer :=
  if decl.last < decl.first then .error (.handleOutOfRange decl.last)
  else
    (Table.push Settings.maxServices .serviceTableFull peer.services { decl with }).map
      fun services => { peer with services }

/-- Files a characteristic under the first service that contains both its handles. -/
def addCharacteristic (peer : Peer) (decl : CharacteristicDecl) : Except Fault Peer :=
  (Table.alterFirst (fun service => service.Contains decl.declaration ∧ service.Contains decl.value)
    (·.add decl) (.handleOutOfRange decl.declaration) peer.services).map
      fun services => { peer with services }

/-- Files a descriptor under the first characteristic, in the order of the services, whose value
has this handle. -/
def addDescriptor (peer : Peer) (value : AttHandle) (descriptor : Descriptor) :
    Except Fault Peer :=
  (Table.alterFirst (fun service => ∃ c ∈ service.characteristics, c.value = value)
    (·.addDescriptor value descriptor) (.characteristicNotFound value) peer.services).map
      fun services => { peer with services }

end Peer

end CameraCentral
