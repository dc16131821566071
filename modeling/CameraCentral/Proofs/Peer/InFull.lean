import CameraCentral.Camera.Subscription
import CameraCentral.Proofs.Gatt.InFull
import CameraCentral.Proofs.Peer.History

/-!
# Peers in full

The form in which identifiers are reported goes into the tables of a peer and no further: what the
peer is asked next, how its walk ends, what is subscribed to and where commands are written is the
same for a peer with its identifiers in full.  Each of the lemmas is an equation: an operation on a
peer in full, with what it files in full, is the operation followed by `inFull`.
-/

namespace CameraCentral

/-- A finding with its identifier in full. -/
def Finding.inFull : Finding → Finding
  | service decl => service decl.inFull
  | characteristic decl => characteristic decl.inFull
  | descriptor value d => descriptor value d.inFull
  | finding => finding

/-- An event with its identifier in full. -/
def Event.inFull : Event → Event
  | discovery conn finding => discovery conn finding.inFull
  | event => event

namespace Peer

/-- A peer with all identifiers of its database in full. -/
def inFull (peer : Peer) : Peer := { peer with services := peer.services.map Service.inFull }

/-- The peer of a result in full. -/
def doneInFull {α : Type} (done : Peer × α) : Peer × α := (done.1.inFull, done.2)

variable (peer : Peer)

@[simp] theorem conn_inFull : peer.inFull.conn = peer.conn := rfl

@[simp] theorem progress_inFull : peer.inFull.progress = peer.progress := rfl

@[simp] theorem services_inFull : peer.inFull.services = peer.services.map Service.inFull := rfl

/-! ## Looking entries up -/

/-- A service is found in full as it is found. -/
theorem findService?_inFull (uuid : Uuid) :
    peer.inFull.findService? uuid = (peer.findService? uuid).map Service.inFull := by
  unfold findService?
  rw [services_inFull, List.find?_map]
  rfl

/-- Services that are the same are looked for in the same way. -/
theorem findService?_congr {u v : Uuid} (h : u ≈ v) :
    peer.findService? u = peer.findService? v := by
  unfold findService?
  simp only [Uuid.equiv_congr_right h]

/-- A characteristic is found in full as it is found. -/
theorem findCharacteristic?_inFull (value : AttHandle) :
    peer.inFull.findCharacteristic? value =
      (peer.findCharacteristic? value).map Characteristic.inFull := by
  have hall : peer.inFull.services.flatMap (·.characteristics) =
      (peer.services.flatMap (·.characteristics)).map Characteristic.inFull := by
    rw [services_inFull, List.flatMap_map, List.map_flatMap]
    rfl
  unfold findCharacteristic?
  rw [hall, List.find?_map]
  rfl

/-- The handle to which commands are written does not depend on the form of identifiers. -/
@[simp] theorem commandHandle?_inFull : peer.inFull.commandHandle? = peer.commandHandle? := by
  unfold commandHandle?
  rw [findService?_inFull]
  cases peer.findService? Uuid.cameraService with
  | none => rfl
  | some service =>
    simp only [Option.map_some, Option.bind_some, Service.find?_inFull, Option.map_map]
    rfl

/-- A characteristic of a service is found in full as it is found. -/
theorem bind_find?_inFull (service? : Option Service) (uuid : Uuid) :
    ((service?.map Service.inFull).bind fun service => service.find? uuid) =
      (service?.bind fun service => service.find? uuid).map Characteristic.inFull := by
  cases service? with
  | none => rfl
  | some service => exact service.find?_inFull uuid

/-- A descriptor of a characteristic is found in full as it is found. -/
theorem bind_findDescriptor?_inFull (characteristic? : Option Characteristic) (uuid : Uuid) :
    ((characteristic?.map Characteristic.inFull).bind fun characteristic =>
        characteristic.find? uuid) =
      (characteristic?.bind fun characteristic => characteristic.find? uuid).map
        Descriptor.inFull := by
  cases characteristic? with
  | none => rfl
  | some characteristic => exact characteristic.find?_inFull uuid

/-! ## Subscribing -/

/-- Switching a characteristic on does not depend on the form of identifiers. -/
theorem subscribe_inFull (count : SubscriptionCount) (characteristic : Characteristic) :
    peer.inFull.subscribe count characteristic.inFull = peer.subscribe count characteristic := by
  unfold subscribe
  rw [Characteristic.properties_inFull, Characteristic.find?_inFull, conn_inFull]
  cases characteristic.properties.subscription? with
  | none => rfl
  | some bits =>
    cases characteristic.find? Uuid.clientConfiguration with
    | none => rfl
    | some descriptor => rfl

/-- Subscribing does not depend on the form of identifiers. -/
@[simp] theorem subscribeAll_inFull : peer.inFull.subscribeAll = peer.subscribeAll := by
  unfold subscribeAll
  rw [findService?_inFull]
  cases peer.findService? Uuid.cameraService with
  | none => rfl
  | some service =>
    simp only [Option.map_some, Service.characteristics_inFull, List.foldlM_map, subscribe_inFull]

/-! ## Filing entries -/

/-- A peer whose tables could be changed, in full. -/
theorem map_services_inFull (tables : Except Fault (List Service)) :
    (tables.map (List.map Service.inFull)).map (fun services => { peer.inFull with services }) =
      (tables.map fun services => { peer with services }).map inFull := by
  cases tables with
  | error why => rfl
  | ok services => rfl

/-- A service is filed in full as it is filed. -/
theorem addService_inFull (decl : ServiceDecl) :
    peer.inFull.addService decl.inFull = (peer.addService decl).map inFull := by
  unfold addService
  have push := Table.push_map Service.inFull Settings.maxServices .serviceTableFull peer.services
    { decl with }
  by_cases reversed : decl.last < decl.first
  · rw [if_pos reversed, if_pos (show decl.inFull.last < decl.inFull.first from reversed)]
    rfl
  · rw [if_neg reversed, if_neg (show ¬ decl.inFull.last < decl.inFull.first from reversed),
      ← map_services_inFull, ← push]
    rfl

/-- A characteristic is filed in full as it is filed. -/
theorem addCharacteristic_inFull (decl : CharacteristicDecl) :
    peer.inFull.addCharacteristic decl.inFull = (peer.addCharacteristic decl).map inFull := by
  unfold addCharacteristic
  rw [services_inFull, Table.alterFirst_map
    (p := fun service : Service => service.Contains decl.declaration ∧ service.Contains decl.value)
    (fun _ => Iff.rfl) fun service => service.add_inFull decl]
  exact peer.map_services_inFull _

/-- A descriptor is filed in full as it is filed. -/
theorem addDescriptor_inFull (value : AttHandle) (descriptor : Descriptor) :
    peer.inFull.addDescriptor value descriptor.inFull =
      (peer.addDescriptor value descriptor).map inFull := by
  have test : ∀ service : Service, (∃ c ∈ service.inFull.characteristics, c.value = value) ↔
      ∃ c ∈ service.characteristics, c.value = value := by
    intro service
    constructor
    · rintro ⟨_, hmem, rfl⟩
      obtain ⟨c, hc, rfl⟩ := List.mem_map.1 hmem
      exact ⟨c, hc, rfl⟩
    · rintro ⟨c, hc, rfl⟩
      exact ⟨c.inFull, List.mem_map_of_mem hc, rfl⟩
  have alter : Table.alterFirst (fun service => ∃ c ∈ service.characteristics, c.value = value)
      (·.addDescriptor value descriptor.inFull) (.characteristicNotFound value)
        (peer.services.map Service.inFull) =
      (Table.alterFirst (fun service => ∃ c ∈ service.characteristics, c.value = value)
        (·.addDescriptor value descriptor) (.characteristicNotFound value)
          peer.services).map (List.map Service.inFull) := by
    apply Table.alterFirst_map
    · exact test
    · intro service
      exact service.addDescriptor_inFull value descriptor
  unfold addDescriptor
  rw [← map_services_inFull, ← alter]
  rfl

/-! ## The walk -/

/-- What characteristics there are to ask about does not depend on the form of identifiers. -/
theorem spans_inFull : peer.inFull.spans = peer.spans := by
  unfold spans
  rw [services_inFull, List.zipIdx_map, List.filterMap_map]
  rfl

/-- What descriptors there are to ask about does not depend on the form of identifiers. -/
theorem slots_inFull : peer.inFull.slots = peer.slots := by
  unfold slots
  rw [services_inFull, List.zipIdx_map, List.flatMap_map]
  congr 1
  funext entry
  obtain ⟨service, i⟩ := entry
  simp only [Prod.map_apply, id_eq, Service.characteristics_inFull, List.zipIdx_map,
    List.filterMap_map, Service.descriptorEnd_inFull]
  rfl

/-- A walk goes on in full after what was filed. -/
theorem filed_inFull (filed : Except Fault Peer) :
    peer.inFull.filed (filed.map inFull) = doneInFull (peer.filed filed) := by
  cases filed with
  | error why => rfl
  | ok peer' => rfl

/-- A walk asks for descriptors in full as it asks for them. -/
theorem askDescriptors_inFull (service characteristic : Nat) :
    peer.inFull.askDescriptors service characteristic =
      doneInFull <$> peer.askDescriptors service characteristic := by
  unfold askDescriptors nextSlot?
  rw [slots_inFull]
  split
  · rfl
  · rw [Dialogue.map_ask]
    exact Dialogue.ask_congr rfl fun _ => rfl

/-- A walk asks for characteristics in full as it asks for them. -/
theorem askCharacteristics_inFull (service : Nat) :
    peer.inFull.askCharacteristics service = doneInFull <$> peer.askCharacteristics service := by
  unfold askCharacteristics nextSpan?
  rw [spans_inFull]
  split
  · exact peer.askDescriptors_inFull 0 0
  · rw [Dialogue.map_ask]
    exact Dialogue.ask_congr rfl fun _ => rfl

/-- A walk goes on in full, or ends in full, after the end of an answer. -/
theorem afterDone_inFull (status : Status) (next : Dialogue (Peer × Option Outcome)) :
    peer.inFull.afterDone status (doneInFull <$> next) =
      doneInFull <$> peer.afterDone status next := by
  unfold afterDone
  by_cases success : status.IsSuccess
  · rw [if_pos success, if_pos success]
  · rw [if_neg success, if_neg success]
    rfl

/-- **A walk takes findings in full as it takes them.** -/
theorem onFinding_inFull (finding : Finding) :
    peer.inFull.onFinding finding.inFull = doneInFull <$> peer.onFinding finding := by
  unfold onFinding
  rw [progress_inFull]
  cases finding with
  | service decl =>
    cases peer.progress with
    | services =>
      simp only [Finding.inFull, addService_inFull, filed_inFull, Dialogue.map_done]
    | _ => rfl
  | servicesDone status =>
    cases peer.progress with
    | services => simp only [Finding.inFull, askCharacteristics_inFull, afterDone_inFull]
    | _ => rfl
  | characteristic decl =>
    cases peer.progress with
    | characteristics service =>
      simp only [Finding.inFull, addCharacteristic_inFull, filed_inFull, Dialogue.map_done]
    | _ => rfl
  | characteristicsDone status =>
    cases peer.progress with
    | characteristics service =>
      simp only [Finding.inFull, askCharacteristics_inFull, afterDone_inFull]
    | _ => rfl
  | descriptor value descriptor =>
    cases peer.progress with
    | descriptors service characteristic =>
      simp only [Finding.inFull, addDescriptor_inFull, filed_inFull, Dialogue.map_done]
    | _ => rfl
  | descriptorsDone status =>
    cases peer.progress with
    | descriptors service characteristic =>
      simp only [Finding.inFull, askDescriptors_inFull, afterDone_inFull]
    | _ => rfl

/-- A walk starts in full as it starts. -/
theorem startWalk_inFull : peer.inFull.startWalk = doneInFull <$> peer.startWalk := by
  unfold startWalk
  rw [progress_inFull]
  by_cases running : peer.progress.InFlight
  · rw [if_pos running, if_pos running]
    rfl
  · rw [if_neg running, if_neg running, Dialogue.map_ask]
    exact Dialogue.ask_congr rfl fun _ => rfl

/-! ## Peers that are the same up to the form of identifiers -/

/-- Two peers are the same up to the form of identifiers, and whatever is looked up in them is the
same up to the form of identifiers, whichever form is used to look for it. -/
structure Alike (peer peer' : Peer) : Prop where
  /-- The connection, the device, the progress of the walk and all entries are the same. -/
  entries : peer'.inFull = peer.inFull
  services : ∀ u v, u ≈ v →
    (peer'.findService? v).map Service.inFull = (peer.findService? u).map Service.inFull
  /-- What is looked up in a service that was looked up. -/
  characteristics : ∀ u v u' v', u ≈ v → u' ≈ v' →
    ((peer'.findService? v).bind fun service => service.find? v').map Characteristic.inFull =
      ((peer.findService? u).bind fun service => service.find? u').map Characteristic.inFull
  values : ∀ value, (peer'.findCharacteristic? value).map Characteristic.inFull =
    (peer.findCharacteristic? value).map Characteristic.inFull
  /-- What is looked up in a characteristic that was looked up. -/
  descriptors : ∀ value u v, u ≈ v →
    ((peer'.findCharacteristic? value).bind fun characteristic => characteristic.find? v).map
        Descriptor.inFull =
      ((peer.findCharacteristic? value).bind fun characteristic => characteristic.find? u).map
        Descriptor.inFull
  subscription : peer'.subscribeAll = peer.subscribeAll
  commandHandle : peer'.commandHandle? = peer.commandHandle?

/-- **Peers that are equal in full are the same up to the form of identifiers**, look-ups
included. -/
theorem alike_of_inFull_eq {peer peer' : Peer} (h : peer'.inFull = peer.inFull) :
    peer.Alike peer' where
  entries := h
  services u v huv := by
    rw [← findService?_inFull, ← findService?_inFull, h, findService?_congr _ huv]
  characteristics u v u' v' huv huv' := by
    rw [← bind_find?_inFull, ← bind_find?_inFull, ← findService?_inFull, ← findService?_inFull, h,
      findService?_congr _ huv]
    simp only [Service.find?_congr _ huv']
  values value := by rw [← findCharacteristic?_inFull, ← findCharacteristic?_inFull, h]
  descriptors value u v huv := by
    rw [← bind_findDescriptor?_inFull, ← bind_findDescriptor?_inFull, ← findCharacteristic?_inFull,
      ← findCharacteristic?_inFull, h]
    simp only [Characteristic.find?_congr _ huv]
  subscription := by rw [← subscribeAll_inFull, h, subscribeAll_inFull]
  commandHandle := by rw [← commandHandle?_inFull, h, commandHandle?_inFull]

end Peer

namespace Registry

/-- A registry with all identifiers in full. -/
def inFull (registry : Registry) : Registry := ⟨registry.peers.map Peer.inFull⟩

/-- The registry of a result in full. -/
def doneInFull {α : Type} (done : Registry × α) : Registry × α := (done.1.inFull, done.2)

variable (registry : Registry) (conn : ConnHandle)

@[simp] theorem peers_inFull : registry.inFull.peers = registry.peers.map Peer.inFull := rfl

/-! ## The registry -/

/-- A peer is found in full as it is found. -/
theorem find?_inFull : registry.inFull.find? conn = (registry.find? conn).map Peer.inFull := by
  unfold find?
  rw [peers_inFull, List.find?_map]
  rfl

/-- A connection is registered in full as it is registered. -/
theorem add_inFull (address : Address) :
    registry.inFull.add conn address = (registry.add conn address).map inFull := by
  have push := Table.push_map Peer.inFull Settings.maxPeers .registryFull registry.peers
    { conn := conn, address := address }
  unfold add
  rw [find?_inFull, Option.isSome_map, peers_inFull]
  by_cases known : (registry.find? conn).isSome
  · rw [if_pos known, if_pos known]
    rfl
  · rw [if_neg known, if_neg known]
    change (Table.push _ _ _ (Peer.inFull { conn := conn, address := address })).map _ = _
    rw [push]
    cases Table.push Settings.maxPeers .registryFull registry.peers
      { conn := conn, address := address } with
    | error why => rfl
    | ok peers => rfl

/-- A connection is dropped in full as it is dropped. -/
theorem erase_inFull : registry.inFull.erase conn = (registry.erase conn).inFull := by
  unfold erase inFull
  rw [List.filter_map]
  rfl

/-- A registered connection is dropped in full as it is dropped. -/
theorem delete_inFull : registry.inFull.delete conn = (registry.delete conn).map inFull := by
  unfold delete
  rw [find?_inFull, erase_inFull]
  cases registry.find? conn with
  | none => rfl
  | some peer => rfl

/-- A peer is put into its place in full as it is put there. -/
theorem put_inFull (peer : Peer) :
    registry.inFull.put peer.inFull = (registry.put peer).inFull := by
  unfold put inFull
  simp only [List.map_map, Registry.mk.injEq]
  apply List.map_congr_left
  intro old _
  change (if old.conn = peer.conn then peer.inFull else old.inFull) =
    Peer.inFull (if old.conn = peer.conn then peer else old)
  by_cases here : old.conn = peer.conn
  · rw [if_pos here, if_pos here]
  · rw [if_neg here, if_neg here]

/-- A peer is changed in full as it is changed. -/
theorem edit_inFull (change change' : Peer → Except Fault Peer)
    (commutes : ∀ peer : Peer, change' peer.inFull = (change peer).map Peer.inFull) :
    registry.inFull.edit conn change' = (registry.edit conn change).map inFull := by
  unfold edit
  rw [find?_inFull]
  cases registry.find? conn with
  | none => rfl
  | some peer =>
    simp only [Option.map_some, commutes]
    cases change peer with
    | error why => rfl
    | ok peer' => exact congrArg Except.ok (registry.put_inFull peer')

/-- A walk of a registered peer, after which the peer is put back, is the same in full. -/
theorem put_done_inFull {α : Type} {d d' : Dialogue (Peer × α)}
    (same : d' = Peer.doneInFull <$> d) :
    (d' >>= fun done => pure (registry.inFull.put done.1, done.2)) =
      doneInFull <$> (d >>= fun done => pure (registry.put done.1, done.2)) := by
  subst same
  rw [bind_map_left, map_bind]
  apply bind_congr
  intro done
  exact congrArg (fun r => Dialogue.done (r, done.2)) (registry.put_inFull done.1)

/-- A walk of a connection starts in full as it starts. -/
theorem discoverAll_inFull :
    registry.inFull.discoverAll conn = doneInFull <$> registry.discoverAll conn := by
  unfold discoverAll
  rw [find?_inFull]
  cases registry.find? conn with
  | none => rfl
  | some peer => exact registry.put_done_inFull peer.startWalk_inFull

/-- The registry takes a finding in full as it takes it. -/
theorem onFinding_inFull (finding : Finding) :
    registry.inFull.onFinding conn finding.inFull =
      doneInFull <$> registry.onFinding conn finding := by
  unfold onFinding
  rw [find?_inFull]
  cases registry.find? conn with
  | none => rfl
  | some peer => exact registry.put_done_inFull (peer.onFinding_inFull finding)

/-- The registry takes an event in full as it takes it. -/
theorem onEvent_inFull (event : Event) :
    registry.inFull.onEvent event.inFull = doneInFull <$> registry.onEvent event := by
  cases event with
  | discovery conn finding => exact registry.onFinding_inFull conn finding
  | _ => rfl

/-- Two registries hold the same peers, up to the form of identifiers. -/
structure Alike (registry registry' : Registry) : Prop where
  length : registry'.peers.length = registry.peers.length
  peers : ∀ conn, Option.Rel Peer.Alike (registry.find? conn) (registry'.find? conn)

/-- Registries that are equal in full hold the same peers. -/
theorem alike_of_inFull_eq {registry registry' : Registry}
    (h : registry'.inFull = registry.inFull) : registry.Alike registry' where
  length := by
    rw [← List.length_map Peer.inFull, ← peers_inFull, h, peers_inFull, List.length_map]
  peers conn := by
    have found :
        (registry'.find? conn).map Peer.inFull = (registry.find? conn).map Peer.inFull := by
      rw [← find?_inFull, ← find?_inFull, h]
    cases hpeer : registry.find? conn with
    | none =>
      rw [hpeer, Option.map_none, Option.map_eq_none_iff] at found
      rw [found]
      exact .none
    | some peer =>
      rw [hpeer, Option.map_some, Option.map_eq_some_iff] at found
      obtain ⟨peer', hpeer', hsame⟩ := found
      rw [hpeer']
      exact .some (Peer.alike_of_inFull_eq hsame)

/-! ## Calls -/

/-- A call with its identifier in full. -/
def Call.inFull : Call → Call
  | addService conn decl => addService conn decl.inFull
  | addCharacteristic conn decl => addCharacteristic conn decl.inFull
  | addDescriptor conn value descriptor => addDescriptor conn value descriptor.inFull
  | event e => event e.inFull
  | call => call

/-- A change that may have been refused is settled in full as it is settled. -/
theorem settled_inFull (changed : Except Fault Registry) :
    registry.inFull.settled (changed.map inFull) = doneInFull (registry.settled changed) := by
  cases changed with
  | error why => rfl
  | ok registry' => rfl

/-- **The registry carries calls out in full as it carries them out.** -/
theorem Call.dialogue_inFull (call : Call) :
    call.inFull.dialogue registry.inFull = doneInFull <$> call.dialogue registry := by
  cases call with
  | add conn address =>
    exact congrArg Dialogue.done (by rw [add_inFull, settled_inFull])
  | delete conn =>
    exact congrArg Dialogue.done (by rw [delete_inFull, settled_inFull])
  | addService conn decl =>
    have edit := registry.edit_inFull conn (·.addService decl) (·.addService decl.inFull)
      fun peer => peer.addService_inFull decl
    exact congrArg Dialogue.done (by rw [Registry.addService, edit, settled_inFull]; rfl)
  | addCharacteristic conn decl =>
    have edit := registry.edit_inFull conn (·.addCharacteristic decl)
      (·.addCharacteristic decl.inFull)
      fun peer => peer.addCharacteristic_inFull decl
    exact congrArg Dialogue.done (by rw [Registry.addCharacteristic, edit, settled_inFull]; rfl)
  | addDescriptor conn value descriptor =>
    have edit := registry.edit_inFull conn (·.addDescriptor value descriptor)
      (·.addDescriptor value descriptor.inFull)
      fun peer => peer.addDescriptor_inFull value descriptor
    exact congrArg Dialogue.done (by rw [Registry.addDescriptor, edit, settled_inFull]; rfl)
  | discoverAll conn =>
    simp only [Call.inFull, Call.dialogue, discoverAll_inFull, Functor.map_map]
    rfl
  | event e =>
    simp only [Call.inFull, Call.dialogue, onEvent_inFull, Functor.map_map]
    rfl

/-! ## Subscriptions -/

/-- What can be done with the registry: a call is carried out, or everything that the camera service
of a connection can push is subscribed to. -/
inductive Use where
  | call (call : Call)
  | subscribe (conn : ConnHandle)
deriving DecidableEq, Repr

/-- What comes back: the response to the call, or the count of the subscriptions, if the connection
is registered. -/
inductive Use.Response where
  | call (response : Registry.Response)
  | subscribed (count? : Option SubscriptionCount)

/-- The dialogue of a use. -/
def Use.dialogue (registry : Registry) : Use → Dialogue (Registry × Use.Response)
  | call c => (fun done => (done.1, .call done.2)) <$> c.dialogue registry
  | subscribe conn =>
    match registry.find? conn with
    | none => .done (registry, .subscribed none)
    | some peer => (fun count => (registry, .subscribed (some count))) <$> peer.subscribeAll

/-- A use with its identifier in full. -/
def Use.inFull : Use → Use
  | call c => call c.inFull
  | subscribe conn => subscribe conn

/-- The registry is used in full as it is used. -/
theorem Use.dialogue_inFull (use : Use) :
    use.inFull.dialogue registry.inFull =
      (fun done => (done.1.inFull, done.2)) <$> use.dialogue registry := by
  cases use with
  | call c =>
    simp only [Use.inFull, Use.dialogue, Call.dialogue_inFull, Functor.map_map]
    rfl
  | subscribe conn =>
    simp only [Use.inFull, Use.dialogue, find?_inFull]
    cases registry.find? conn with
    | none => rfl
    | some peer => simp only [Option.map_some, Peer.subscribeAll_inFull, Functor.map_map]

end Registry

end CameraCentral
