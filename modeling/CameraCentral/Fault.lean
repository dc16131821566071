import CameraCentral.Settings

/-!
# Faults

Why an operation of the central was refused.  The causes are the constructors of `Fault`; their
wording is in `Fault.message` alone.
-/

namespace CameraCentral

/-- The handle of a connection, valid while the connection is up. -/
abbrev ConnHandle := UInt16

/-- The handle of an attribute in the database of a peer. -/
abbrev AttHandle := UInt16

/-- Why the host turned a request down. -/
inductive HostFault where
  /-- The host answered with this status code. -/
  | status (code : UInt32)
  /-- The host has no room for another request. -/
  | busy
deriving DecidableEq, Repr

/-- The text of a host's refusal. -/
def HostFault.message : HostFault → String
  | .status code => "Raw(" ++ toString code.toNat ++ ")"
  | .busy => "Busy"

/-- Why an operation of the central was refused. -/
inductive Fault where
  /-- The host turned the request down. -/
  | host (why : HostFault)
  /-- No camera is connected. -/
  | notConnected
  /-- The handle to which commands are written is not known yet. -/
  | commandHandleUnresolved
  /-- No peer is registered under this connection. -/
  | peerNotFound (conn : ConnHandle)
  /-- A peer is already registered under this connection. -/
  | peerExists (conn : ConnHandle)
  /-- The database of the peer is being walked already. -/
  | discoveryInProgress
  /-- The handle lies in no known range. -/
  | handleOutOfRange (handle : AttHandle)
  /-- No characteristic has this value handle. -/
  | characteristicNotFound (handle : AttHandle)
  /-- No more peers can be registered. -/
  | registryFull
  /-- No more services can be kept for the peer. -/
  | serviceTableFull
  /-- No more characteristics can be kept for the service. -/
  | characteristicTableFull
  /-- No more descriptors can be kept for the characteristic. -/
  | descriptorTableFull
  /-- The command is empty. -/
  | emptyPayload
  /-- The command is too long. -/
  | payloadTooLarge
  /-- The buffer is too small. -/
  | bufferOverflow
deriving DecidableEq, Repr

namespace Fault

/-- The name of the cause. -/
def name : Fault → String
  | host _ => "Host"
  | notConnected => "NotConnected"
  | commandHandleUnresolved => "CommandHandleUnresolved"
  | peerNotFound _ => "PeerNotFound"
  | peerExists _ => "PeerExists"
  | discoveryInProgress => "DiscoveryInProgress"
  | handleOutOfRange _ => "HandleOutOfRange"
  | characteristicNotFound _ => "CharacteristicNotFound"
  | registryFull => "RegistryFull"
  | serviceTableFull => "ServiceTableFull"
  | characteristicTableFull => "CharacteristicTableFull"
  | descriptorTableFull => "DescriptorTableFull"
  | emptyPayload => "EmptyPayload"
  | payloadTooLarge => "PayloadTooLarge"
  | bufferOverflow => "BufferOverflow"

/-- What the fault is about, if it is about anything: a handle, or the refusal of the host. -/
def detail? : Fault → Option String
  | host why => some why.message
  | peerNotFound conn | peerExists conn => some (toString conn.toNat)
  | handleOutOfRange handle | characteristicNotFound handle => some (toString handle.toNat)
  | _ => none

/-- The text of the fault: its name, and in parentheses what it is about. -/
def message (fault : Fault) : String :=
  match fault.detail? with
  | some detail => fault.name ++ "(" ++ detail ++ ")"
  | none => fault.name

end Fault

/-- A result that was mapped and is no fault was none before. -/
theorem map_eq_ok_iff {α β : Type} {f : α → β} {result : Except Fault α} {b : β} :
    result.map f = .ok b ↔ ∃ a, result = .ok a ∧ f a = b := by
  cases result <;> simp [Except.map]

/-! ## Status codes -/

/-- The code with which the host reports how something ended. -/
structure Status where
  /-- The number reported. -/
  code : UInt16
deriving DecidableEq, Repr

namespace Status

/-- The status of an operation that succeeded. -/
def success : Status := ⟨0⟩

/-- A status is a success when its code is zero. -/
def IsSuccess (status : Status) : Prop := status.code = 0

instance (status : Status) : Decidable status.IsSuccess :=
  inferInstanceAs (Decidable (status.code = 0))

/-- A status as the fault that it reports. -/
def fault (status : Status) : Fault :=
  .host (.status status.code.toUInt32)

end Status

end CameraCentral
