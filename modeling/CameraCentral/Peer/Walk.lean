import CameraCentral.Host.Dialogue
import CameraCentral.Host.Event
import CameraCentral.Peer.Basic

/-!
# Walking a database

The database of a peer is found in three phases: first all services, then the characteristics of
one service after the other, then the descriptors of one characteristic after the other.  One
request is out at a time; its findings are filed as they come in, and when it is done the next one
is made.

Not everything is asked about.  A service whose range is a single handle has no room for a
characteristic, and a characteristic whose value is the last handle before the next declaration has
no room for a descriptor.  `Peer.spans` lists the services that have room and `Peer.slots` the
characteristics that have, both in the order of the walk and each with its place in the tables; the
walk goes to the first entry at or behind the place that it has reached.  The services do not change
after the first phase, nor the characteristics after the second, so in each phase the list it goes
by stands still.
-/

namespace CameraCentral

/-- How a walk ended. -/
inductive Outcome where
  | complete
  | failed (why : Fault)
deriving DecidableEq, Repr

/-- A service that has room for characteristics. -/
structure Span where
  /-- The index of the service. -/
  service : Nat
  first : AttHandle
  last : AttHandle
deriving DecidableEq, Repr

/-- A characteristic that has room for descriptors. -/
structure Slot where
  /-- The index of the service. -/
  service : Nat
  /-- The index of the characteristic within the service. -/
  characteristic : Nat
  value : AttHandle
  /-- The last handle that can hold a descriptor. -/
  last : AttHandle
deriving DecidableEq, Repr

namespace Peer

/-! ## What there is to ask about -/

/-- The services that have room for characteristics. -/
def spans (peer : Peer) : List Span :=
  peer.services.zipIdx.filterMap fun (service, i) =>
    if service.first < service.last then some ⟨i, service.first, service.last⟩ else none

/-- The characteristics that have room for descriptors. -/
def slots (peer : Peer) : List Slot :=
  peer.services.zipIdx.flatMap fun (service, i) =>
    service.characteristics.zipIdx.filterMap fun (characteristic, j) =>
      let last := service.descriptorEnd characteristic.value
      if characteristic.value < last then some ⟨i, j, characteristic.value, last⟩ else none

/-- The first service with room at or behind an index. -/
def nextSpan? (peer : Peer) (service : Nat) : Option Span :=
  peer.spans.find? fun span => service ≤ span.service

/-- The first characteristic with room at or behind a place. -/
def nextSlot? (peer : Peer) (service characteristic : Nat) : Option Slot :=
  peer.slots.find? fun slot =>
    service < slot.service ∨ service = slot.service ∧ characteristic ≤ slot.characteristic

/-! ## Steps of the walk -/

/-- Ends the walk with a fault. -/
def fail (peer : Peer) (why : Fault) : Peer × Option Outcome :=
  ({ peer with progress := .failed }, some (.failed why))

/-- Goes on after a finding was filed, or ends the walk because it could not be. -/
def filed (peer : Peer) : Except Fault Peer → Peer × Option Outcome
  | .ok peer => (peer, none)
  | .error why => peer.fail why

/-- Asks for the descriptors of the next characteristic at or behind a place, or ends the walk if
there is none. -/
def askDescriptors (peer : Peer) (service characteristic : Nat) :
    Dialogue (Peer × Option Outcome) :=
  match peer.nextSlot? service characteristic with
  | none => .done ({ peer with progress := .complete }, some .complete)
  | some slot =>
    .ask (.discoverDescriptors peer.conn slot.value slot.last) fun
      | .accepted =>
        .done ({ peer with progress := .descriptors slot.service slot.characteristic }, none)
      | .refused why => .done (peer.fail (.host why))

/-- Asks for the characteristics of the next service at or behind an index, or for descriptors if
there is none. -/
def askCharacteristics (peer : Peer) (service : Nat) : Dialogue (Peer × Option Outcome) :=
  match peer.nextSpan? service with
  | none => peer.askDescriptors 0 0
  | some span =>
    .ask (.discoverCharacteristics peer.conn span.first span.last) fun
      | .accepted => .done ({ peer with progress := .characteristics span.service }, none)
      | .refused why => .done (peer.fail (.host why))

/-- Takes the next step if the request before it succeeded, and ends the walk otherwise. -/
def afterDone (peer : Peer) (status : Status) (next : Dialogue (Peer × Option Outcome)) :
    Dialogue (Peer × Option Outcome) :=
  if status.IsSuccess then next else .done (peer.fail status.fault)

/-- Takes a finding into the walk, and says how the walk ended if it ended with it.  A finding that
does not belong to the phase of the walk changes nothing. -/
def onFinding (peer : Peer) (finding : Finding) : Dialogue (Peer × Option Outcome) :=
  match peer.progress, finding with
  | .services, .service decl => .done (peer.filed (peer.addService decl))
  | .services, .servicesDone status => peer.afterDone status (peer.askCharacteristics 0)
  | .characteristics _, .characteristic decl => .done (peer.filed (peer.addCharacteristic decl))
  | .characteristics service, .characteristicsDone status =>
    peer.afterDone status (peer.askCharacteristics (service + 1))
  | .descriptors _ _, .descriptor value descriptor =>
    .done (peer.filed (peer.addDescriptor value descriptor))
  | .descriptors service characteristic, .descriptorsDone status =>
    peer.afterDone status (peer.askDescriptors service (characteristic + 1))
  | _, _ => .done (peer, none)

/-- Starts a walk from the beginning; what was found before is dropped.  A walk that is under way is
left alone. -/
def startWalk (peer : Peer) : Dialogue (Peer × Except Fault Unit) :=
  if peer.progress.InFlight then .done (peer, .error .discoveryInProgress)
  else
    .ask (.discoverServices peer.conn) fun
      | .accepted => .done ({ peer with services := [], progress := .services }, .ok ())
      | .refused why =>
        .done ({ peer with services := [], progress := .failed }, .error (.host why))

end Peer

end CameraCentral
