import CameraCentral.Host.Dialogue
import CameraCentral.Peer.Basic

/-!
# Subscribing to a camera

A camera answers commands and reports its state by pushing values of the characteristics of the
camera service.  Each of them has to be switched on, by a write to the client configuration behind
it.  The writes go out one after the other without waiting for confirmation, and one that is
refused or has nowhere to go holds up none of the others.
-/

namespace CameraCentral

/-- What became of the characteristics that can push their values. -/
structure SubscriptionCount where
  /-- How many writes the host took on. -/
  submitted : Nat := 0
  /-- How many characteristics have no client configuration to write to. -/
  missing : Nat := 0
  /-- How many writes the host refused. -/
  failed : Nat := 0
deriving DecidableEq, Repr

namespace Peer

/-- Switches on one characteristic, if it can push its value, and counts what became of it. -/
def subscribe (peer : Peer) (count : SubscriptionCount) (characteristic : Characteristic) :
    Dialogue SubscriptionCount :=
  match characteristic.properties.subscription? with
  | none => .done count
  | some bits =>
    match characteristic.find? Uuid.clientConfiguration with
    | none => .done { count with missing := count.missing + 1 }
    | some descriptor =>
      .ask (.write peer.conn descriptor.handle (Bytes.ofWord bits)) fun
        | .accepted => .done { count with submitted := count.submitted + 1 }
        | .refused _ => .done { count with failed := count.failed + 1 }

/-- Switches on every characteristic of the camera service that can push its value. -/
def subscribeAll (peer : Peer) : Dialogue SubscriptionCount :=
  match peer.findService? Uuid.cameraService with
  | none => .done {}
  | some service => service.characteristics.foldlM peer.subscribe {}

/-- The handle to which commands are written: the value of the command characteristic of the camera
service. -/
def commandHandle? (peer : Peer) : Option AttHandle :=
  (peer.findService? Uuid.cameraService).bind fun service =>
    (service.find? Uuid.command).map (·.value)

end Peer

end CameraCentral
