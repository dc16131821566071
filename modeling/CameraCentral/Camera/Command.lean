import CameraCentral.Camera.Basic
import CameraCentral.Host.Dialogue

/-!
# Commands to the camera

A command is a short byte string in the camera's own language.  It is written without
confirmation, so all that is known afterwards is whether the host took it on.  Commands that
cannot reach a camera are refused before the host hears of them.
-/

namespace CameraCentral

namespace Camera

/-- The command that starts a recording or takes a picture. -/
def shutterOn : Bytes := [0x03, 0x01, 0x01, 0x01]

/-- The command that ends a recording. -/
def shutterOff : Bytes := [0x03, 0x01, 0x01, 0x00]

/-- Writes a command.  What is missing first is what the refusal names: the connection, the handle
to write to, a byte of the command; and then its length is looked at. -/
def writeCommand (camera : Camera) (payload : Bytes) : Dialogue (Except Fault Unit) :=
  match camera.conn, camera.commandHandle with
  | none, _ => .done (.error .notConnected)
  | some _, none => .done (.error .commandHandleUnresolved)
  | some conn, some handle =>
    if payload = [] then .done (.error .emptyPayload)
    else if Settings.commandMaxLength < payload.length then .done (.error .payloadTooLarge)
    else .ask (.writeNoResponse conn handle payload) fun answer => .done answer.result

end Camera

/-- What other parts of the system ask of the central. -/
inductive Command where
  | startScan
  | stopScan
  /-- Write these bytes to the camera. -/
  | write (payload : Bytes)
deriving DecidableEq, Repr

end CameraCentral
