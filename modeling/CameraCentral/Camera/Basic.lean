import CameraCentral.Address
import CameraCentral.Fault

/-!
# The connected camera

What is known of the camera that the central is connected to: its connection, its address, and the
handle to which commands are written once its database has been walked.
-/

namespace CameraCentral

/-- The camera that is connected, if one is. -/
structure Camera where
  conn : Option ConnHandle := none
  /-- The handle to which commands are written, once it is known. -/
  commandHandle : Option AttHandle := none
  address : Option Address := none
deriving DecidableEq, Repr

namespace Camera

/-- A camera is connected. -/
def IsConnected (camera : Camera) : Prop := camera.conn.isSome

/-- A camera is connected and takes commands. -/
def IsReady (camera : Camera) : Prop := camera.conn.isSome ∧ camera.commandHandle.isSome

instance (camera : Camera) : Decidable camera.IsConnected :=
  inferInstanceAs (Decidable (camera.conn.isSome = true))

instance (camera : Camera) : Decidable camera.IsReady :=
  inferInstanceAs (Decidable (camera.conn.isSome = true ∧ camera.commandHandle.isSome = true))

end Camera

end CameraCentral
