import CameraCentral.Host.Script
import CameraCentral.Peer.Registry
import CameraCentral.Proofs.Peer.Steps

/-!
# Histories of the registry

A run of the registry is a sequence of turns, each of which is one call with the requests that it
made of the host and the answers that it got.  `Registry.Step` lists everything that a turn can do,
and `Turn.step` says that there is nothing else.

Every call is about one connection, or about none.  `Turn.frame` says that it leaves the peers of
all other connections as they are and makes no request about them.  So the walk of one peer can be
followed through a run in which all kinds of things are done with the others (`Run.follow`).
-/

namespace CameraCentral

namespace Registry

/-! ## Calls and turns -/

/-- What the registry can be asked, or told. -/
inductive Call where
  | add (conn : ConnHandle) (address : Address)
  | delete (conn : ConnHandle)
  | addService (conn : ConnHandle) (decl : ServiceDecl)
  | addCharacteristic (conn : ConnHandle) (decl : CharacteristicDecl)
  | addDescriptor (conn : ConnHandle) (value : AttHandle) (descriptor : Descriptor)
  | discoverAll (conn : ConnHandle)
  | event (event : Event)
deriving DecidableEq, Repr

/-- What a call returns: the result of what was asked for, or how a walk ended if it ended with an
event. -/
inductive Response where
  | result (result : Except Fault Unit)
  | outcome (outcome : Option Outcome)

/-- The registry and the response after a change that may have been refused. -/
def settled (registry : Registry) : Except Fault Registry → Registry × Response
  | .ok changed => (changed, .result (.ok ()))
  | .error why => (registry, .result (.error why))

/-- The dialogue that carries a call out. -/
def Call.dialogue (registry : Registry) : Call → Dialogue (Registry × Response)
  | add conn address => .done (registry.settled (registry.add conn address))
  | delete conn => .done (registry.settled (registry.delete conn))
  | addService conn decl => .done (registry.settled (registry.addService conn decl))
  | addCharacteristic conn decl => .done (registry.settled (registry.addCharacteristic conn decl))
  | addDescriptor conn value descriptor =>
    .done (registry.settled (registry.addDescriptor conn value descriptor))
  | discoverAll conn => (fun done => (done.1, .result done.2)) <$> registry.discoverAll conn
  | event e => (fun done => (done.1, .outcome done.2)) <$> registry.onEvent e

/-- The connection that a call is about, if it is about one. -/
def Call.conn? : Call → Option ConnHandle
  | add conn _ | delete conn | discoverAll conn => some conn
  | addService conn _ | addCharacteristic conn _ | addDescriptor conn _ _ => some conn
  | event e => e.conn?

/-- The entry that a call files by hand, if it files one, with its connection. -/
def Call.entry? : Call → Option (ConnHandle × Finding)
  | addService conn decl => some (conn, .service decl)
  | addCharacteristic conn decl => some (conn, .characteristic decl)
  | addDescriptor conn value descriptor => some (conn, .descriptor value descriptor)
  | add _ _ | delete _ | discoverAll _ | event _ => none

/-- One call of the registry, carried out against some host. -/
structure Turn where
  before : Registry
  call : Call
  exchanges : List Exchange
  response : Response
  after : Registry
  /-- The turn follows a branch of the dialogue of its call. -/
  yields : (call.dialogue before).Yields exchanges (after, response)

/-- The turn in which a call is carried out against a host that answers a request according to its
state. -/
def Turn.against {σ : Type} (reply : σ → Request → Answer × σ) (host : σ) (registry : Registry)
    (call : Call) : Turn where
  before := registry
  call := call
  exchanges := ((call.dialogue registry).run reply host).exchanges
  response := ((call.dialogue registry).run reply host).value.2
  after := ((call.dialogue registry).run reply host).value.1
  yields := Dialogue.yields_run reply _ host

/-! ## What a turn can do -/

/-- Everything that a turn can do. -/
inductive Step (registry : Registry) : Call → List Exchange → Registry → Response → Prop where
  | added (conn : ConnHandle) (address : Address) (registry' : Registry)
      (h : registry.add conn address = .ok registry') :
    Step registry (.add conn address) [] registry' (.result (.ok ()))
  | unadded (conn : ConnHandle) (address : Address) (why : Fault)
      (h : registry.add conn address = .error why) :
    Step registry (.add conn address) [] registry (.result (.error why))
  | deleted (conn : ConnHandle) (peer : Peer) (known : registry.find? conn = some peer) :
    Step registry (.delete conn) [] (registry.erase conn) (.result (.ok ()))
  | undeleted (conn : ConnHandle) (unknown : registry.find? conn = none) :
    Step registry (.delete conn) [] registry (.result (.error (.peerNotFound conn)))
  | filed {call : Call} {conn : ConnHandle} {entry : Finding} (h : call.entry? = some (conn, entry))
      (peer peer' : Peer) (known : registry.find? conn = some peer)
      (fits : peer.file entry = .ok peer') :
    Step registry call [] (registry.put peer') (.result (.ok ()))
  | unfiled {call : Call} {conn : ConnHandle} {entry : Finding}
      (h : call.entry? = some (conn, entry)) (peer : Peer)
      (known : registry.find? conn = some peer) (why : Fault)
      (unfit : peer.file entry = .error why) :
    Step registry call [] registry (.result (.error why))
  | unfilable {call : Call} {conn : ConnHandle} {entry : Finding}
      (h : call.entry? = some (conn, entry)) (unknown : registry.find? conn = none) :
    Step registry call [] registry (.result (.error (.peerNotFound conn)))
  | walkStarted (conn : ConnHandle) (peer : Peer) (known : registry.find? conn = some peer)
      (halted : ¬ peer.progress.InFlight) :
    Step registry (.discoverAll conn) [⟨.discoverServices conn, .accepted⟩]
      (registry.put { peer with services := [], progress := .services }) (.result (.ok ()))
  | walkRefused (conn : ConnHandle) (peer : Peer) (known : registry.find? conn = some peer)
      (halted : ¬ peer.progress.InFlight) (why : HostFault) :
    Step registry (.discoverAll conn) [⟨.discoverServices conn, .refused why⟩]
      (registry.put { peer with services := [], progress := .failed })
      (.result (.error (.host why)))
  | walkRunning (conn : ConnHandle) (peer : Peer) (known : registry.find? conn = some peer)
      (running : peer.progress.InFlight) :
    Step registry (.discoverAll conn) [] (registry.put peer)
      (.result (.error .discoveryInProgress))
  | walkUnknown (conn : ConnHandle) (unknown : registry.find? conn = none) :
    Step registry (.discoverAll conn) [] registry (.result (.error (.peerNotFound conn)))
  | walked (conn : ConnHandle) (finding : Finding) (peer peer' : Peer)
      (known : registry.find? conn = some peer) {exchanges : List Exchange}
      {outcome : Option Outcome} (walk : peer.WalkStep finding exchanges peer' outcome) :
    Step registry (.event (.discovery conn finding)) exchanges (registry.put peer')
      (.outcome outcome)
  | ignored (event : Event)
      (h : ∀ conn finding, event = .discovery conn finding → registry.find? conn = none) :
    Step registry (.event event) [] registry (.outcome none)

section Inversion

variable {registry registry' : Registry} {exchanges : List Exchange} {conn : ConnHandle}
  {response : Response}

/-- Filing an entry by hand does what `Step` says. -/
theorem step_of_edit {call : Call} {entry : Finding} (hcall : call.entry? = some (conn, entry))
    {change : Peer → Except Fault Peer} (hchange : ∀ peer : Peer, change peer = peer.file entry)
    (h : (Dialogue.done (registry.settled (registry.edit conn change))).Yields exchanges
      (registry', response)) : Step registry call exchanges registry' response := by
  obtain ⟨rfl, hvalue⟩ := Dialogue.yields_done_iff.1 h
  unfold edit at hvalue
  cases known : registry.find? conn with
  | none =>
    rw [known] at hvalue
    cases hvalue
    exact .unfilable hcall known
  | some peer =>
    simp only [known, hchange] at hvalue
    cases hfile : peer.file entry with
    | ok peer' =>
      rw [hfile] at hvalue
      cases hvalue
      exact .filed hcall peer peer' known hfile
    | error why =>
      rw [hfile] at hvalue
      cases hvalue
      exact .unfiled hcall peer known why hfile

/-- Starting a walk does what `Step` says. -/
theorem step_of_discoverAll {result : Except Fault Unit}
    (h : (registry.discoverAll conn).Yields exchanges (registry', result)) :
    Step registry (.discoverAll conn) exchanges registry' (.result result) := by
  unfold discoverAll at h
  cases known : registry.find? conn with
  | none =>
    rw [known] at h
    obtain ⟨rfl, hvalue⟩ := Dialogue.yields_done_iff.1 h
    cases hvalue
    exact .walkUnknown conn known
  | some peer =>
    obtain rfl := conn_of_find?_eq_some known
    rw [known] at h
    obtain ⟨first, second, ⟨peer', result'⟩, rfl, hwalk, hrest⟩ := Dialogue.yields_bind_iff.1 h
    obtain ⟨rfl, hvalue⟩ := Dialogue.yields_done_iff.1 hrest
    cases hvalue
    rw [List.append_nil]
    unfold Peer.startWalk at hwalk
    split at hwalk
    · rename_i running
      obtain ⟨rfl, hvalue⟩ := Dialogue.yields_done_iff.1 hwalk
      cases hvalue
      exact .walkRunning peer.conn peer known running
    · rename_i halted
      rcases hwalk.ask_cases with ⟨rest, rfl, hrest⟩ | ⟨why, rest, rfl, hrest⟩
      · obtain ⟨rfl, hvalue⟩ := Dialogue.yields_done_iff.1 hrest
        cases hvalue
        exact .walkStarted peer.conn peer known halted
      · obtain ⟨rfl, hvalue⟩ := Dialogue.yields_done_iff.1 hrest
        cases hvalue
        exact .walkRefused peer.conn peer known halted why

/-- An event does what `Step` says. -/
theorem step_of_onEvent {event : Event} {outcome : Option Outcome}
    (h : (registry.onEvent event).Yields exchanges (registry', outcome)) :
    Step registry (.event event) exchanges registry' (.outcome outcome) := by
  by_cases hfinding : ∃ conn finding, event = .discovery conn finding
  · obtain ⟨conn, finding, rfl⟩ := hfinding
    change (registry.onFinding conn finding).Yields exchanges (registry', outcome) at h
    unfold onFinding at h
    cases known : registry.find? conn with
    | none =>
      rw [known] at h
      obtain ⟨rfl, hvalue⟩ := Dialogue.yields_done_iff.1 h
      cases hvalue
      refine .ignored _ fun other finding' heq => ?_
      cases heq
      exact known
    | some peer =>
      rw [known] at h
      obtain ⟨first, second, ⟨peer', outcome'⟩, rfl, hwalk, hrest⟩ :=
        Dialogue.yields_bind_iff.1 h
      obtain ⟨rfl, hvalue⟩ := Dialogue.yields_done_iff.1 hrest
      cases hvalue
      rw [List.append_nil]
      exact .walked conn finding peer peer' known (Peer.walkStep_of_onFinding hwalk)
  · have hdone : registry.onEvent event = .done (registry, none) := by
      cases event with
      | discovery conn finding => exact absurd ⟨conn, finding, rfl⟩ hfinding
      | _ => rfl
    rw [hdone] at h
    obtain ⟨rfl, hvalue⟩ := Dialogue.yields_done_iff.1 h
    cases hvalue
    exact .ignored event fun conn finding heq => absurd ⟨conn, finding, heq⟩ hfinding

end Inversion

/-- **A turn does what `Step` says.** -/
theorem Turn.step (turn : Turn) :
    Step turn.before turn.call turn.exchanges turn.after turn.response := by
  obtain ⟨registry, call, exchanges, response, registry', h⟩ := turn
  cases call with
  | add conn address =>
    obtain ⟨rfl, hvalue⟩ := Dialogue.yields_done_iff.1 h
    cases hadd : registry.add conn address with
    | ok added =>
      rw [hadd] at hvalue
      cases hvalue
      exact .added conn address registry' hadd
    | error why =>
      rw [hadd] at hvalue
      cases hvalue
      exact .unadded conn address why hadd
  | delete conn =>
    obtain ⟨rfl, hvalue⟩ := Dialogue.yields_done_iff.1 h
    unfold delete at hvalue
    cases known : registry.find? conn with
    | none =>
      rw [known] at hvalue
      cases hvalue
      exact .undeleted conn known
    | some peer =>
      rw [known] at hvalue
      cases hvalue
      exact .deleted conn peer known
  | addService conn decl => exact step_of_edit rfl (fun _ => rfl) h
  | addCharacteristic conn decl => exact step_of_edit rfl (fun _ => rfl) h
  | addDescriptor conn value descriptor => exact step_of_edit rfl (fun _ => rfl) h
  | discoverAll conn =>
    obtain ⟨⟨middle, result⟩, hmiddle, hvalue⟩ := Dialogue.yields_map_iff.1 h
    cases hvalue
    exact step_of_discoverAll hmiddle
  | event event =>
    obtain ⟨⟨middle, outcome⟩, hmiddle, hvalue⟩ := Dialogue.yields_map_iff.1 h
    cases hvalue
    exact step_of_onEvent hmiddle

/-! ## What a turn leaves alone -/

variable {registry registry' : Registry} {call : Call} {exchanges : List Exchange}
  {response : Response} {conn : ConnHandle}

/-- A call that files an entry by hand is about the connection of the entry. -/
theorem Call.conn?_of_entry? {entry : Finding} (h : call.entry? = some (conn, entry)) :
    call.conn? = some conn := by
  cases call with
  | addService | addCharacteristic | addDescriptor => cases h; rfl
  | add | delete | discoverAll | event => cases h

/-- A peer that stays with its connection takes its place in the registry. -/
theorem find?_put_of_known {peer peer' : Peer} (known : registry.find? conn = some peer)
    (same : peer'.conn = peer.conn) : (registry.put peer').find? conn = some peer' := by
  obtain rfl := conn_of_find?_eq_some known
  rw [← same] at known ⊢
  exact find?_put_self known

/-- A peer that stays with its connection leaves the places of others alone. -/
theorem find?_put_of_known_of_ne {peer peer' : Peer} {other : ConnHandle}
    (known : registry.find? conn = some peer) (same : peer'.conn = peer.conn)
    (h : other ≠ conn) : (registry.put peer').find? other = registry.find? other := by
  obtain rfl := conn_of_find?_eq_some known
  exact find?_put_of_ne registry (same ▸ h)

/-- A call leaves the peers of other connections as they are. -/
theorem Step.find?_of_ne (step : Step registry call exchanges registry' response)
    (other : call.conn? ≠ some conn) : registry'.find? conn = registry.find? conn := by
  have hne : ∀ {conn'}, call.conn? = some conn' → conn ≠ conn' := by
    rintro conn' hconn rfl
    exact other hconn
  cases step with
  | added conn' address _ h => rw [find?_of_add h, if_neg (hne rfl)]
  | deleted conn' peer known => exact find?_erase_of_ne registry (hne rfl)
  | filed h peer peer' known fits =>
    have same : peer'.conn = peer.conn := by rw [Peer.file_eq_ok fits]
    exact find?_put_of_known_of_ne known same (hne (Call.conn?_of_entry? h))
  | walkStarted conn' peer known halted =>
    have same : { peer with services := [], progress := .services }.conn = peer.conn := rfl
    exact find?_put_of_known_of_ne known same (hne rfl)
  | walkRefused conn' peer known halted why =>
    have same : { peer with services := [], progress := .failed }.conn = peer.conn := rfl
    exact find?_put_of_known_of_ne known same (hne rfl)
  | walkRunning conn' peer known running => exact find?_put_of_known_of_ne known rfl (hne rfl)
  | walked conn' finding peer peer' known walk =>
    exact find?_put_of_known_of_ne known walk.conn_eq (hne rfl)
  | unadded | undeleted | unfiled | unfilable | walkUnknown | ignored => rfl

/-- A call only makes requests about its own connection. -/
theorem Step.request_conn (step : Step registry call exchanges registry' response) {x : Exchange}
    (hx : x ∈ exchanges) : x.request.conn? = call.conn? := by
  cases step with
  | walkStarted | walkRefused =>
    obtain rfl := List.mem_singleton.1 hx
    rfl
  | walked conn' finding peer peer' known walk =>
    rw [(walk.request_conn hx).2, conn_of_find?_eq_some known]
    rfl
  | added | unadded | deleted | undeleted | filed | unfiled | unfilable | walkRunning
  | walkUnknown | ignored => cases hx

/-! ## What a turn says about one connection -/

/-- The requests of a turn that are about a connection. -/
def Turn.requestsOf (conn : ConnHandle) (turn : Turn) : List Request :=
  (turn.exchanges.map Exchange.request).filter fun request => request.conn? = some conn

/-- The finding about a connection that is taken in, if it is one. -/
def Turn.finding? (conn : ConnHandle) (turn : Turn) : Option Finding :=
  match turn.call with
  | .event (.discovery other finding) => if other = conn then some finding else none
  | _ => none

/-- In this turn the walk of a connection is reported to have ended. -/
def Turn.Reports (conn : ConnHandle) (outcome : Outcome) (turn : Turn) : Prop :=
  (turn.finding? conn).isSome ∧ turn.response = .outcome (some outcome)

instance (conn : ConnHandle) (outcome : Outcome) : DecidablePred (Turn.Reports conn outcome) :=
  fun turn =>
    match h : turn.response with
    | .outcome reported =>
      decidable_of_iff ((turn.finding? conn).isSome ∧ reported = some outcome)
        (by simp [Turn.Reports, h])
    | .result result => .isFalse (by simp [Turn.Reports, h])

/-- The call is an event. -/
def Call.IsEvent : Call → Prop
  | event _ => True
  | _ => False

instance : DecidablePred Call.IsEvent
  | .event _ => .isTrue trivial
  | .add _ _ | .delete _ | .discoverAll _ => .isFalse id
  | .addService _ _ | .addCharacteristic _ _ | .addDescriptor _ _ _ => .isFalse id

/-- A connection is left to its events: nothing else is done with it in a history. -/
def LeftToEvents (conn : ConnHandle) (history : List Turn) : Prop :=
  ∀ turn ∈ history, turn.call.conn? = some conn → turn.call.IsEvent

instance (conn : ConnHandle) (history : List Turn) : Decidable (LeftToEvents conn history) :=
  inferInstanceAs (Decidable (∀ turn ∈ history, _))

/-- A walk that is not under way begins with a request for the services, whether the host takes it
on or not, and what was found before is dropped. -/
theorem Turn.walk_begins {turn : Turn} {peer : Peer} (starts : turn.call = .discoverAll conn)
    (known : turn.before.find? conn = some peer) (halted : ¬ peer.progress.InFlight) :
    turn.requestsOf conn = [.discoverServices conn] ∧
      (turn.response = .result (.ok ()) ∧
          turn.after.find? conn = some { peer with services := [], progress := .services } ∨
        ∃ why, turn.response = .result (.error (.host why)) ∧
          turn.after.find? conn = some { peer with services := [], progress := .failed }) := by
  have step := turn.step
  rw [starts] at step
  have hrequests : ∀ answer, turn.exchanges = [⟨.discoverServices conn, answer⟩] →
      turn.requestsOf conn = [.discoverServices conn] := by
    intro answer hexchanges
    simp [Turn.requestsOf, hexchanges, Request.conn?]
  generalize turn.exchanges = exchanges at step hrequests
  generalize turn.response = response at step
  generalize turn.after = after at step
  cases step with
  | walkStarted _ peer₀ known' _ =>
    obtain rfl : peer₀ = peer := Option.some.inj (known'.symm.trans known)
    have same : { peer₀ with services := [], progress := .services }.conn = peer₀.conn := rfl
    exact ⟨hrequests _ rfl, .inl ⟨rfl, find?_put_of_known known same⟩⟩
  | walkRefused _ peer₀ known' _ why =>
    obtain rfl : peer₀ = peer := Option.some.inj (known'.symm.trans known)
    have same : { peer₀ with services := [], progress := .failed }.conn = peer₀.conn := rfl
    exact ⟨hrequests _ rfl, .inr ⟨why, rfl, find?_put_of_known known same⟩⟩
  | walkRunning _ peer₀ known' running =>
    obtain rfl : peer₀ = peer := Option.some.inj (known'.symm.trans known)
    exact absurd running halted
  | walkUnknown _ unknown =>
    rw [known] at unknown
    cases unknown
  | filed h | unfiled h | unfilable h => cases h

/-- A walk that is accepted begins with an empty database. -/
theorem Turn.walk_accepted {turn : Turn} (starts : turn.call = .discoverAll conn)
    (accepted : turn.response = .result (.ok ())) :
    ∃ begun, turn.after.find? conn = some begun ∧ begun.services = [] := by
  have step := turn.step
  rw [starts, accepted] at step
  generalize turn.exchanges = exchanges at step
  generalize turn.after = after at step
  cases step with
  | walkStarted _ peer known halted =>
    have same : { peer with services := [], progress := .services }.conn = peer.conn := rfl
    exact ⟨_, find?_put_of_known known same, rfl⟩
  | filed h => cases h

/-- All requests of a turn about a connection are about that connection. -/
theorem Turn.requestsOf_of_own {turn : Turn} (own : turn.call.conn? = some conn) :
    turn.requestsOf conn = turn.exchanges.map (·.request) := by
  refine List.filter_eq_self.2 fun request hrequest => ?_
  obtain ⟨x, hx, rfl⟩ := List.mem_map.1 hrequest
  exact decide_eq_true ((turn.step.request_conn hx).trans own)

/-- **Frame.**  A turn that is not about a connection takes in no finding about it, makes no request
about it, and leaves its peer alone. -/
theorem Turn.frame {turn : Turn} (other : turn.call.conn? ≠ some conn) :
    turn.finding? conn = none ∧ turn.requestsOf conn = [] ∧
      turn.after.find? conn = turn.before.find? conn := by
  refine ⟨?_, ?_, turn.step.find?_of_ne other⟩
  · unfold finding?
    split
    · rename_i conn' finding hcall
      refine if_neg fun heq => other ?_
      rw [hcall, heq]
      rfl
    · rfl
  · refine List.filter_eq_nil_iff.2 fun request hrequest => ?_
    obtain ⟨x, hx, rfl⟩ := List.mem_map.1 hrequest
    rw [turn.step.request_conn hx]
    simpa using other

/-- An event takes a finding into the walk of a peer, or leaves the peer alone. -/
theorem Turn.walk_or_unchanged {turn : Turn} {peer : Peer} (isEvent : turn.call.IsEvent)
    (known : turn.before.find? conn = some peer) (own : turn.call.conn? = some conn) :
    (∃ finding peer' outcome, turn.finding? conn = some finding ∧
        turn.response = .outcome outcome ∧
        peer.WalkStep finding turn.exchanges peer' outcome ∧
        turn.after.find? conn = some peer') ∨
      turn.finding? conn = none ∧ turn.exchanges = [] ∧ turn.after.find? conn = some peer := by
  have step := turn.step
  unfold Turn.finding?
  generalize turn.call = call at step own isEvent
  generalize turn.response = response at step
  generalize turn.exchanges = exchanges at step
  generalize turn.after = after at step
  cases step with
  | walked conn' finding peer₀ peer' known' walk =>
    obtain rfl : conn' = conn := Option.some.inj own
    obtain rfl : peer₀ = peer := Option.some.inj (known'.symm.trans known)
    exact .inl ⟨finding, peer', _, if_pos rfl, rfl, walk, find?_put_of_known known walk.conn_eq⟩
  | ignored event h =>
    refine .inr ⟨?_, rfl, known⟩
    cases event with
    | discovery conn' finding =>
      obtain rfl : conn' = conn := Option.some.inj own
      cases known.symm.trans (h conn' finding rfl)
    | _ => rfl
  | filed h | unfiled h | unfilable h =>
    cases call with
    | event e => cases h
    | _ => exact isEvent.elim
  | _ => exact isEvent.elim

/-- A turn in which nothing but an event can happen to a connection takes a finding into the walk of
its peer, or leaves the peer alone. -/
theorem Turn.walk_or_aside {turn : Turn} {peer : Peer}
    (known : turn.before.find? conn = some peer)
    (left : turn.call.conn? = some conn → turn.call.IsEvent) :
    (∃ finding peer' outcome, turn.finding? conn = some finding ∧
        turn.response = .outcome outcome ∧ turn.requestsOf conn = turn.exchanges.map (·.request) ∧
        peer.WalkStep finding turn.exchanges peer' outcome ∧
        turn.after.find? conn = some peer') ∨
      turn.finding? conn = none ∧ turn.requestsOf conn = [] ∧
        turn.after.find? conn = some peer := by
  by_cases own : turn.call.conn? = some conn
  · have hall := turn.requestsOf_of_own own
    rcases turn.walk_or_unchanged (left own) known own with
      ⟨finding, peer', outcome, hfinding, hresponse, walk, hafter⟩ | ⟨hfinding, hsilent, hafter⟩
    · exact .inl ⟨finding, peer', outcome, hfinding, hresponse, hall, walk, hafter⟩
    · rw [hsilent] at hall
      exact .inr ⟨hfinding, hall, hafter⟩
  · obtain ⟨hfinding, hsilent, hafter⟩ := turn.frame own
    exact .inr ⟨hfinding, hsilent, hafter.trans known⟩

/-! ## Runs -/

/-- The runs of the registry from a start, each with its history and the registry that it ends
with. -/
inductive Run (start : Registry) : List Turn → Registry → Prop where
  | nil : Run start [] start
  | concat {history : List Turn} {registry : Registry} (run : Run start history registry)
      (turn : Turn) (next : turn.before = registry) : Run start (history ++ [turn]) turn.after

/-- The requests about a connection that are made in a history. -/
def requestsOf (conn : ConnHandle) (history : List Turn) : List Request :=
  history.flatMap (Turn.requestsOf conn)

@[simp] theorem requestsOf_concat (conn : ConnHandle) (history : List Turn) (turn : Turn) :
    requestsOf conn (history ++ [turn]) = requestsOf conn history ++ turn.requestsOf conn := by
  simp [requestsOf]

variable {start : Registry} {history : List Turn} {peer : Peer}

/-- **The walk of one peer in a run.**  While its connection is left to its events, the peer stays
registered, and what holds of it at the beginning and is kept by every finding that is taken into
its walk holds at the end. -/
theorem Run.follow (run : Run start history registry) (known : start.find? conn = some peer)
    (left : LeftToEvents conn history) (inv : List Turn → Peer → Prop) (initially : inv [] peer)
    (aside : ∀ past turn peer, turn.finding? conn = none → turn.requestsOf conn = [] →
      inv past peer → inv (past ++ [turn]) peer)
    (walked : ∀ past turn peer finding peer' outcome, turn.before.find? conn = some peer →
      turn.finding? conn = some finding → turn.response = .outcome outcome →
      turn.requestsOf conn = turn.exchanges.map (·.request) →
      peer.WalkStep finding turn.exchanges peer' outcome → turn.after.find? conn = some peer' →
      inv past peer → inv (past ++ [turn]) peer') :
    ∃ peer', registry.find? conn = some peer' ∧ inv history peer' := by
  induction run with
  | nil => exact ⟨peer, known, initially⟩
  | concat run turn next ih =>
    obtain ⟨middle, hmiddle, hinv⟩ := ih fun t ht => left t (List.mem_append_left _ ht)
    rw [← next] at hmiddle
    rcases turn.walk_or_aside hmiddle (left turn (by simp)) with
      ⟨finding, peer', outcome, hfinding, hresponse, hrequests, walk, hafter⟩ |
      ⟨hfinding, hrequests, hafter⟩
    · exact ⟨peer', hafter,
        walked _ turn middle finding peer' outcome hmiddle hfinding hresponse hrequests walk hafter
          hinv⟩
    · exact ⟨middle, hafter, aside _ turn middle hfinding hrequests hinv⟩

/-- While a connection is left to its events, a walk of it that is reported to be complete is
complete from then on. -/
theorem Run.completed (run : Run start history registry) (known : start.find? conn = some peer)
    (left : LeftToEvents conn history) :
    ∃ walked, registry.find? conn = some walked ∧
      ((∃ turn ∈ history, turn.Reports conn .complete) → walked.progress = .complete) := by
  refine run.follow known left
    (fun past peer => (∃ turn ∈ past, turn.Reports conn .complete) → peer.progress = .complete)
    (by simp) ?_ ?_
  · rintro past turn peer hfinding - completed ⟨t, ht, reports⟩
    rcases List.mem_append.1 ht with ht | ht
    · exact completed ⟨t, ht, reports⟩
    · obtain rfl := List.mem_singleton.1 ht
      have hsome := reports.1
      rw [hfinding] at hsome
      cases hsome
  · rintro past turn peer finding peer' outcome - - hresponse - walk - completed ⟨t, ht, reports⟩
    rcases List.mem_append.1 ht with ht | ht
    · have hcomplete := completed ⟨t, ht, reports⟩
      have halted : ¬ peer.progress.InFlight := fun running => running.ne_complete hcomplete
      obtain ⟨-, rfl, -⟩ := walk.of_not_inFlight halted
      exact hcomplete
    · obtain rfl := List.mem_singleton.1 ht
      have hsame : Response.outcome outcome = .outcome (some .complete) :=
        hresponse.symm.trans reports.2
      obtain rfl := Response.outcome.inj hsame
      exact walk.reports walk.inFlight_of_outcome

/-- A run goes on with a run from where it ended. -/
theorem Run.append {registry' : Registry} {history' : List Turn}
    (run : Run start history registry) (run' : Run registry history' registry') :
    Run start (history ++ history') registry' := by
  induction run' with
  | nil => rwa [List.append_nil]
  | concat _ turn next ih =>
    rw [← List.append_assoc]
    exact ih.concat turn next

/-! ### Runs against scripted hosts -/

/-- The history of a list of calls, each carried out against a scripted host. -/
def playback (registry : Registry) : List (Call × Script) → List Turn
  | [] => []
  | (call, script) :: calls =>
    Turn.against Script.reply script registry call ::
      playback (Turn.against Script.reply script registry call).after calls

/-- The registry after a list of calls, each carried out against a scripted host. -/
def after (registry : Registry) : List (Call × Script) → Registry
  | [] => registry
  | (call, script) :: calls => after (Turn.against Script.reply script registry call).after calls

/-- Scripted hosts make runs. -/
theorem run_playback (registry : Registry) (calls : List (Call × Script)) :
    Run registry (playback registry calls) (after registry calls) := by
  induction calls generalizing registry with
  | nil => exact .nil
  | cons entry calls ih =>
    obtain ⟨call, script⟩ := entry
    have hfirst : Run registry [Turn.against Script.reply script registry call]
        (Turn.against Script.reply script registry call).after :=
      Run.concat .nil _ rfl
    exact hfirst.append (ih _)

end Registry

end CameraCentral
