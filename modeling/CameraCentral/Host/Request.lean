import CameraCentral.Address
import CameraCentral.Fault

/-!
# Requests to the host

The host is the part of the system that owns the radio.  The central asks it for things, and the
host says at once whether it takes the request on; what comes of it is reported later, as an
event.  Cancelling a scan is the one exception: once it is accepted, the scan is over.
-/

namespace CameraCentral

/-- How to scan. -/
structure ScanParams where
  passive : Bool := Settings.scanPassive
  filterDuplicates : Bool := Settings.scanFilterDuplicates
  /-- Time between the starts of two scan windows, in units of 0.625 ms. -/
  interval : UInt16 := Settings.scanInterval
  /-- Length of one scan window, in units of 0.625 ms. -/
  window : UInt16 := Settings.scanWindow
  /-- How long to scan, in milliseconds.  Zero scans until the scan is cancelled. -/
  durationMs : UInt32 := Settings.scanDurationMs
deriving DecidableEq, Repr

/-- What the central can ask the host for. -/
inductive Request where
  /-- Look for advertising devices. -/
  | startScan (params : ScanParams)
  /-- Stop looking. -/
  | cancelScan
  /-- Connect to a device. -/
  | connect (address : Address) (timeoutMs : UInt32)
  /-- Drop a connection. -/
  | terminate (conn : ConnHandle) (reason : UInt8)
  /-- Pair if necessary, and encrypt the connection. -/
  | secure (conn : ConnHandle)
  /-- Report every service of the peer. -/
  | discoverServices (conn : ConnHandle)
  /-- Report the characteristics declared from `first` to `last`. -/
  | discoverCharacteristics (conn : ConnHandle) (first last : AttHandle)
  /-- Report the descriptors of the characteristic with this value handle, up to `last`. -/
  | discoverDescriptors (conn : ConnHandle) (value last : AttHandle)
  /-- Write an attribute and have the peer confirm it. -/
  | write (conn : ConnHandle) (handle : AttHandle) (data : Bytes)
  /-- Write an attribute without confirmation. -/
  | writeNoResponse (conn : ConnHandle) (handle : AttHandle) (data : Bytes)
  /-- Forget the keys of a device. -/
  | forgetBond (address : Address)
deriving DecidableEq, Repr

/-- Whether the host takes a request on. -/
inductive Answer where
  | accepted
  | refused (why : HostFault)
deriving DecidableEq, Repr

/-- A request, and what the host said to it. -/
structure Exchange where
  request : Request
  answer : Answer
deriving DecidableEq, Repr

namespace Answer

/-- The answer as the result of an operation that only makes the request. -/
def result : Answer → Except Fault Unit
  | accepted => .ok ()
  | refused why => .error (.host why)

end Answer

/-! ## Kinds of request -/

/-- A request without what it is about. -/
inductive Request.Kind where
  | startScan
  | cancelScan
  | connect
  | terminate
  | secure
  | discoverServices
  | discoverCharacteristics
  | discoverDescriptors
  | write
  | writeNoResponse
  | forgetBond
deriving DecidableEq, Repr

/-- The kind of a request. -/
def Request.kind : Request → Request.Kind
  | startScan _ => .startScan
  | cancelScan => .cancelScan
  | connect _ _ => .connect
  | terminate _ _ => .terminate
  | secure _ => .secure
  | discoverServices _ => .discoverServices
  | discoverCharacteristics _ _ _ => .discoverCharacteristics
  | discoverDescriptors _ _ _ => .discoverDescriptors
  | write _ _ _ => .write
  | writeNoResponse _ _ _ => .writeNoResponse
  | forgetBond _ => .forgetBond

/-- The connection that a request is about, if it is about one. -/
def Request.conn? : Request → Option ConnHandle
  | terminate conn _ | secure conn | discoverServices conn => some conn
  | discoverCharacteristics conn _ _ | discoverDescriptors conn _ _ => some conn
  | write conn _ _ | writeNoResponse conn _ _ => some conn
  | startScan _ | cancelScan | connect _ _ | forgetBond _ => none

end CameraCentral
