import CameraCentral.Peer.Walk

/-!
# The registry of peers

The registry holds the connected peers, at most one for each connection.  Every operation is about
one connection and leaves the peers of other connections alone.
-/

namespace CameraCentral

/-- The connected peers. -/
structure Registry where
  peers : List Peer := []
deriving DecidableEq, Repr

namespace Registry

/-- The peer of a connection. -/
def find? (registry : Registry) (conn : ConnHandle) : Option Peer :=
  registry.peers.find? fun peer => peer.conn = conn

/-- Registers a new connection.  Nothing is known of its database yet. -/
def add (registry : Registry) (conn : ConnHandle) (address : Address) : Except Fault Registry :=
  if (registry.find? conn).isSome then .error (.peerExists conn)
  else (Table.push Settings.maxPeers .registryFull registry.peers { conn, address }).map Registry.mk

/-- Drops the peer of a connection, with all that was found. -/
def erase (registry : Registry) (conn : ConnHandle) : Registry where
  peers := registry.peers.filter fun peer => peer.conn ≠ conn

/-- Drops the peer of a connection, which must be registered. -/
def delete (registry : Registry) (conn : ConnHandle) : Except Fault Registry :=
  match registry.find? conn with
  | some _ => .ok (registry.erase conn)
  | none => .error (.peerNotFound conn)

/-- Puts a peer in the place of the one with its connection. -/
def put (registry : Registry) (peer : Peer) : Registry where
  peers := registry.peers.map fun old => if old.conn = peer.conn then peer else old

/-- Changes the peer of a connection. -/
def edit (registry : Registry) (conn : ConnHandle) (change : Peer → Except Fault Peer) :
    Except Fault Registry :=
  match registry.find? conn with
  | some peer => (change peer).map registry.put
  | none => .error (.peerNotFound conn)

/-! ### What the look-up sees -/

/-- The peer found for a connection is a peer of that connection. -/
theorem conn_of_find?_eq_some {registry : Registry} {conn : ConnHandle} {peer : Peer}
    (h : registry.find? conn = some peer) : peer.conn = conn := by
  simpa using List.find?_some h

@[simp] theorem find?_erase_self (registry : Registry) (conn : ConnHandle) :
    (registry.erase conn).find? conn = none := by
  simp [find?, erase]

theorem find?_erase_of_ne (registry : Registry) {conn other : ConnHandle} (h : other ≠ conn) :
    (registry.erase conn).find? other = registry.find? other := by
  simp only [find?, erase, List.find?_filter]
  congr 1
  funext peer
  by_cases hc : peer.conn = other <;> simp [hc, h]

/-- A registered peer is replaced by one with its connection. -/
theorem find?_put_self {registry : Registry} {peer old : Peer}
    (h : registry.find? peer.conn = some old) :
    (registry.put peer).find? peer.conn = some peer := by
  obtain ⟨peers⟩ := registry
  simp only [find?, put, List.find?_map] at h ⊢
  have hsame : (fun p : Peer => decide (p.conn = peer.conn)) ∘
      (fun old => if old.conn = peer.conn then peer else old) =
        fun p => decide (p.conn = peer.conn) := by
    funext p
    by_cases hc : p.conn = peer.conn <;> simp [hc]
  have hconn : old.conn = peer.conn := by simpa using List.find?_some h
  rw [hsame, h]
  simp [hconn]

theorem find?_put_of_ne (registry : Registry) {peer : Peer} {other : ConnHandle}
    (h : other ≠ peer.conn) : (registry.put peer).find? other = registry.find? other := by
  obtain ⟨peers⟩ := registry
  simp only [find?, put, List.find?_map]
  have hsame : (fun p : Peer => decide (p.conn = other)) ∘
      (fun old => if old.conn = peer.conn then peer else old) =
        fun p => decide (p.conn = other) := by
    funext p
    by_cases hc : p.conn = peer.conn
    · simp [hc, h.symm]
    · simp [hc]
  rw [hsame]
  cases hf : peers.find? fun p => decide (p.conn = other) with
  | none => rfl
  | some old =>
    have hconn : old.conn = other := by simpa using List.find?_some hf
    simp [hconn, h]

/-- After a peer was dropped the others are still there. -/
theorem find?_erase (registry : Registry) (conn other : ConnHandle) :
    (registry.erase conn).find? other = if other = conn then none else registry.find? other := by
  by_cases h : other = conn
  · rw [if_pos h, h, find?_erase_self]
  · rw [if_neg h, find?_erase_of_ne registry h]

/-- After a registered peer was replaced the others are still there. -/
theorem find?_put {registry : Registry} {peer old : Peer}
    (known : registry.find? peer.conn = some old) (other : ConnHandle) :
    (registry.put peer).find? other =
      if other = peer.conn then some peer else registry.find? other := by
  by_cases h : other = peer.conn
  · rw [if_pos h, h, find?_put_self known]
  · rw [if_neg h, find?_put_of_ne registry h]

/-- Only the last of the peers that take one place stays there. -/
theorem put_put (registry : Registry) {peer peer' : Peer} (h : peer'.conn = peer.conn) :
    (registry.put peer).put peer' = registry.put peer' := by
  unfold put
  rw [List.map_map]
  congr 2
  funext old
  by_cases hold : old.conn = peer.conn
  · simp [hold, h]
  · simp [hold, h]

/-- A connection is registered when it is not registered yet and there is room for it; it comes
last, and nothing is known of its database. -/
theorem add_eq_ok_iff {registry registry' : Registry} {conn : ConnHandle} {address : Address} :
    registry.add conn address = .ok registry' ↔
      registry.find? conn = none ∧ registry.peers.length < Settings.maxPeers ∧
        registry' = ⟨registry.peers ++ [{ conn := conn, address := address }]⟩ := by
  unfold add
  cases known : registry.find? conn with
  | some peer => simp
  | none =>
    by_cases room : registry.peers.length < Settings.maxPeers
    · simp [Table.push, room, Except.map, eq_comm]
    · simp [Table.push, room, Except.map]

/-- After a connection was registered the others are still there. -/
theorem find?_of_add {registry registry' : Registry} {conn : ConnHandle} {address : Address}
    (added : registry.add conn address = .ok registry') (other : ConnHandle) :
    registry'.find? other = if other = conn then some { conn := conn, address := address }
      else registry.find? other := by
  obtain ⟨unknown, -, rfl⟩ := add_eq_ok_iff.1 added
  unfold find? at unknown ⊢
  rw [List.find?_append]
  by_cases h : other = conn
  · rw [if_pos h, h, unknown]
    simp
  · rw [if_neg h, List.find?_singleton]
    have hne : ¬ conn = other := fun heq => h heq.symm
    simp [hne]

/-! ## Entries of a peer's database -/

/-- Files a service of a peer. -/
def addService (registry : Registry) (conn : ConnHandle) (decl : ServiceDecl) :
    Except Fault Registry :=
  registry.edit conn (·.addService decl)

/-- Files a characteristic of a peer. -/
def addCharacteristic (registry : Registry) (conn : ConnHandle) (decl : CharacteristicDecl) :
    Except Fault Registry :=
  registry.edit conn (·.addCharacteristic decl)

/-- Files a descriptor of a peer. -/
def addDescriptor (registry : Registry) (conn : ConnHandle) (value : AttHandle)
    (descriptor : Descriptor) : Except Fault Registry :=
  registry.edit conn (·.addDescriptor value descriptor)

/-! ## Walks -/

/-- Starts a walk through the database of a peer. -/
def discoverAll (registry : Registry) (conn : ConnHandle) :
    Dialogue (Registry × Except Fault Unit) :=
  match registry.find? conn with
  | some peer => do
    let (peer, result) ← peer.startWalk
    return (registry.put peer, result)
  | none => .done (registry, .error (.peerNotFound conn))

/-- Takes a finding into the walk of a peer, and says how the walk ended if it ended with it.
Findings about unknown connections change nothing. -/
def onFinding (registry : Registry) (conn : ConnHandle) (finding : Finding) :
    Dialogue (Registry × Option Outcome) :=
  match registry.find? conn with
  | some peer => do
    let (peer, outcome) ← peer.onFinding finding
    return (registry.put peer, outcome)
  | none => .done (registry, none)

/-- Takes an event into the walk of the peer that it is about.  Events that are no findings belong
to no walk. -/
def onEvent (registry : Registry) : Event → Dialogue (Registry × Option Outcome)
  | .discovery conn finding => registry.onFinding conn finding
  | _ => .done (registry, none)

end Registry

end CameraCentral
