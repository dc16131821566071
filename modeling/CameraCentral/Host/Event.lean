import CameraCentral.Advert.Report
import CameraCentral.Gatt.Basic

/-!
# Events from the host

Everything that the host reports, one event at a time.  Events about one connection come in the
order in which things happened on it, but nothing promises that the connection is still up.  What
the discovery of a database brings to light is a `Finding`; all findings travel in one kind of
event.
-/

namespace CameraCentral

/-- What the discovery of a peer's database brings to light. -/
inductive Finding where
  /-- There is a service. -/
  | service (decl : ServiceDecl)
  /-- There are no more services. -/
  | servicesDone (status : Status)
  /-- There is a characteristic. -/
  | characteristic (decl : CharacteristicDecl)
  /-- There are no more characteristics in the range that was asked for. -/
  | characteristicsDone (status : Status)
  /-- There is a descriptor for the characteristic with this value handle. -/
  | descriptor (value : AttHandle) (descriptor : Descriptor)
  /-- There are no more descriptors in the range that was asked for. -/
  | descriptorsDone (status : Status)
deriving DecidableEq, Repr

/-- What the host can report. -/
inductive Event where
  /-- A device advertises itself. -/
  | advertisement (report : Advert.Report)
  /-- The scan is over. -/
  | scanComplete (reason : Status)
  /-- A connection attempt is over; the connection is up if the status is a success. -/
  | linkEstablished (conn : ConnHandle) (address : Address) (status : Status)
  /-- The connection is encrypted, or could not be. -/
  | encryptionChange (conn : ConnHandle) (status : Status)
  /-- The connection is down. -/
  | disconnect (conn : ConnHandle) (reason : Status)
  /-- A bonded peer asks to be paired again. -/
  | repeatPairing (conn : ConnHandle)
  /-- The attribute MTU was agreed. -/
  | mtuChanged (conn : ConnHandle) (mtu : UInt16)
  /-- The discovery of the peer's database found something. -/
  | discovery (conn : ConnHandle) (finding : Finding)
  /-- The peer confirmed a write, or rejected it. -/
  | writeComplete (conn : ConnHandle) (handle : AttHandle) (status : Status)
  /-- The peer pushed a value. -/
  | notification (conn : ConnHandle) (handle : AttHandle) (indication : Bool) (length : UInt16)
  /-- The pause before scanning resumes is over. -/
  | scanRestartDue
deriving DecidableEq, Repr

/-- The connection that an event is about, if it is about one. -/
def Event.conn? : Event → Option ConnHandle
  | linkEstablished conn _ _ | encryptionChange conn _ | disconnect conn _ => some conn
  | repeatPairing conn | mtuChanged conn _ | discovery conn _ => some conn
  | writeComplete conn _ _ | notification conn _ _ _ => some conn
  | advertisement _ | scanComplete _ | scanRestartDue => none

/-! ## Reactions -/

/-- What is left to do for whoever reported an event. -/
inductive Reaction where
  /-- Nothing. -/
  | nothing
  /-- Report `Event.scanRestartDue` after this many milliseconds. -/
  | restartScanAfter (delayMs : UInt32)
  /-- Let the peer pair again; its old bond is gone. -/
  | retryPairing
  /-- Do not let the peer pair again. -/
  | ignorePairing
deriving DecidableEq, Repr

/-- The text of a reaction. -/
def Reaction.text : Reaction → String
  | nothing => "None"
  | restartScanAfter delayMs => "RestartScanAfter(" ++ toString delayMs.toNat ++ ")"
  | retryPairing => "RetryPairing"
  | ignorePairing => "IgnorePairing"

end CameraCentral
