import CameraCentral.Link.Basic

/-!
# The button panel

The panel has two buttons.  It turns a press into a command, going by the last snapshot of the
link that it was shown.  The shutter button starts a recording and ends it again in turn; pressed
while no camera takes commands, it forgets that a recording was started.
-/

namespace CameraCentral

/-- The buttons of the panel. -/
inductive Button where
  | shutter
  | scan
deriving DecidableEq, Repr

/-- The state of the panel. -/
structure Panel where
  /-- The next press of the shutter button ends a recording. -/
  recording : Bool := false
deriving DecidableEq, Repr

namespace Panel

/-- What the shutter button writes next. -/
def shutter (panel : Panel) : Bytes :=
  if panel.recording then Camera.shutterOff else Camera.shutterOn

/-- Presses a button, and says what to do if there is anything to do. -/
def press (panel : Panel) (button : Button) (link : Snapshot) : Panel × Option Command :=
  match button with
  | .shutter =>
    if link.camera.IsReady then ({ recording := !panel.recording }, some (.write panel.shutter))
    else ({ recording := false }, none)
  | .scan => (panel, some (if link.scanning then .stopScan else .startScan))

end Panel

end CameraCentral
