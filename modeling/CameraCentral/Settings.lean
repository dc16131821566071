/-!
# Settings

All times, capacities and protocol limits of the central stand here, so that they can be read and
tuned in one place.  Numbers that go out on air or to the host keep the width they have there;
capacities are plain natural numbers.
-/

namespace CameraCentral

namespace Settings

/-! ## Looking for cameras -/

/-- How long one scan runs, in milliseconds.  Zero scans until the scan is cancelled. -/
def scanDurationMs : UInt32 := 30000

/-- Time between the starts of two scan windows, in units of 0.625 ms. -/
def scanInterval : UInt16 := 0x0010

/-- Length of one scan window, in units of 0.625 ms. -/
def scanWindow : UInt16 := 0x0010

/-- Scans are passive: the camera announces its service in the advertising packet itself, so no
scan response has to be asked for. -/
def scanPassive : Bool := true

/-- Duplicate advertising reports are dropped by the controller. -/
def scanFilterDuplicates : Bool := true

/-- Pause before scanning resumes after the camera was lost, in milliseconds. -/
def scanRestartDelayMs : UInt32 := 1000

/-- Whether scanning resumes by itself after a lost link or a failed connection attempt. -/
def autoRescan : Bool := true

/-- The largest number of cameras kept in the list of discovered devices. -/
def maxDiscovered : Nat := 20

/-- The longest payload of a legacy advertising packet. -/
def advertDataMax : Nat := 31

/-! ## Connections -/

/-- How long a connection attempt may take, in milliseconds. -/
def connectTimeoutMs : UInt32 := 30000

/-- The shortest connection interval asked for, in units of 1.25 ms. -/
def connIntervalMin : UInt16 := 24

/-- The longest connection interval asked for, in units of 1.25 ms. -/
def connIntervalMax : UInt16 := 40

/-- The number of connection events that the camera may skip. -/
def peripheralLatency : UInt16 := 0

/-- The supervision timeout, in units of 10 ms. -/
def supervisionTimeout : UInt16 := 400

/-- The reason given when the central drops a link itself: the user at the other end ended it. -/
def terminateReason : UInt8 := 0x13

/-- The longest wait for one discovery response, in milliseconds. -/
def gattTimeoutMs : UInt64 := 30000

/-! ## The attribute database of a peer -/

/-- The number of peers that can be registered at one time. -/
def maxPeers : Nat := 2

/-- The number of services kept for each peer. -/
def maxServices : Nat := 12

/-- The number of characteristics kept for each service. -/
def maxCharacteristics : Nat := 10

/-- The number of descriptors kept for each characteristic. -/
def maxDescriptors : Nat := 4

/-! ## Commands, bonds and buttons -/

/-- The largest command: the default attribute MTU of 23 bytes less the three bytes of its
header. -/
def commandMaxLength : Nat := 20

/-- The number of bonds kept. -/
def maxBonds : Nat := 4

/-- The flash page at which the pages reserved for bonds begin. -/
def bondPageStart : UInt32 := 240

/-- The number of flash pages reserved for bonds. -/
def bondPageCount : UInt32 := 4

/-- How long a button has to be still before a press counts, in milliseconds. -/
def buttonDebounceMs : UInt64 := 50

end Settings

end CameraCentral
