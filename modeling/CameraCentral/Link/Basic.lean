import CameraCentral.Camera.Command
import CameraCentral.Peer.Registry
import CameraCentral.Scanner

/-!
# The camera link

The link is the whole state of the central: the scanner, the registry of peers, the camera that is
connected, and the stage that the connection to a camera has reached,

  idle → scanning → connecting → link established → securing
    → service discovery → subscribed → ready.

This file holds the state, what other parts of the system may ask of it, and the snapshot by which
they see it.  How the link goes from stage to stage is in `CameraCentral.Link.Events`.
-/

namespace CameraCentral

/-- How far the connection to a camera has come. -/
inductive Stage where
  | idle
  | scanning
  | connecting
  | linkEstablished
  | securing
  | serviceDiscovery
  | subscribed
  /-- Commands can be written. -/
  | ready
deriving DecidableEq, Repr

/-- The name of a stage. -/
def Stage.name : Stage → String
  | idle => "Idle"
  | scanning => "Scanning"
  | connecting => "Connecting"
  | linkEstablished => "LinkEstablished"
  | securing => "Securing"
  | serviceDiscovery => "ServiceDiscovery"
  | subscribed => "Subscribed"
  | ready => "Ready"

/-- What other parts of the system see of the link. -/
structure Snapshot where
  stage : Stage := .idle
  /-- A scan is running. -/
  scanning : Bool := false
  camera : Camera := {}
  /-- The names of the cameras seen. -/
  devices : List String := []
deriving DecidableEq, Repr

/-- The state of the central. -/
structure Link where
  stage : Stage := .idle
  scanner : Scanner := {}
  peers : Registry := {}
  camera : Camera := {}
deriving DecidableEq, Repr

namespace Link

/-- The link as others see it. -/
def snapshot (link : Link) : Snapshot where
  stage := link.stage
  scanning := link.scanner.running
  camera := link.camera
  devices := link.scanner.names

/-- A camera is connected, or a connection to one is being made. -/
def Busy (link : Link) : Prop := link.camera.IsConnected ∨ link.stage = .connecting

instance (link : Link) : Decidable link.Busy :=
  inferInstanceAs (Decidable (link.camera.IsConnected ∨ link.stage = .connecting))

/-! ## Requests from other parts of the system -/

/-- Starts looking for a camera.  While the link is busy there is no scan to start, and one comes
back by itself once the link is lost. -/
def startScan (link : Link) : Dialogue (Link × Except Fault Unit) :=
  if link.Busy then .done ({ link with scanner := link.scanner.want }, .ok ())
  else do
    match ← link.scanner.start with
    | (scanner, .ok ()) =>
      let stage := if link.stage = .idle then .scanning else link.stage
      return ({ link with scanner, stage }, .ok ())
    | (scanner, .error why) => return ({ link with scanner }, .error why)

/-- Stops looking for a camera, and does not look again after the link is lost. -/
def stopScan (link : Link) : Dialogue (Link × Except Fault Unit) := do
  match ← link.scanner.stop with
  | (scanner, .ok ()) =>
    let stage := if link.stage = .scanning then .idle else link.stage
    return ({ link with scanner, stage }, .ok ())
  | (scanner, .error why) => return ({ link with scanner }, .error why)

/-- Writes a command to the camera. -/
def writeCommand (link : Link) (payload : Bytes) : Dialogue (Except Fault Unit) :=
  link.camera.writeCommand payload

/-- Carries out a command from another part of the system. -/
def perform (link : Link) : Command → Dialogue (Link × Except Fault Unit)
  | .startScan => link.startScan
  | .stopScan => link.stopScan
  | .write payload => (link, ·) <$> link.writeCommand payload

end Link

end CameraCentral
