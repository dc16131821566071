import CameraCentral.Proofs.Host.SameHost
import CameraCentral.Proofs.Peer.Distinct
import Mathlib.Data.List.Forall2

/-!
# Peers are independent

The registry keeps all peers in one list, and all calls go through it.  Still every peer is served
as if it were alone.  A call about another connection leaves the entry of a connection as it is.  A
call about the connection itself is a function of that entry: `Call.onEntry` carries it out on the
entry alone, and `Call.view_dialogue` says that the registry does nothing else, as far as the
connection can see.

There is one thing that a connection cannot see in its entry, and that is whether the registry has
room for it.  So what happens to a connection in a run is what happens to it in a run of its own
calls alone, with the same host, as long as it was not turned away for want of room
(`Run.servedAlone`).  Two connections always have room.
-/

namespace CameraCentral

namespace Registry

variable {registry registry' : Registry} {conn : ConnHandle} {call : Call} {turn turn' : Turn}
  {history : List Turn}

/-! ## The entry of a connection -/

/-- The registry has room for one more peer. -/
def HasRoom (registry : Registry) : Prop := registry.peers.length < Settings.maxPeers

instance (registry : Registry) : Decidable registry.HasRoom :=
  inferInstanceAs (Decidable (registry.peers.length < Settings.maxPeers))

/-- What a connection sees of the end of a call: its entry, and the response. -/
def view (conn : ConnHandle) (done : Registry × Response) : Option Peer × Response :=
  (done.1.find? conn, done.2)

/-- The entry of a peer and the response after a change that may have been refused. -/
def settledEntry (peer : Peer) : Except Fault Peer → Option Peer × Response
  | .ok changed => (some changed, .result (.ok ()))
  | .error why => (some peer, .result (.error why))

/-- Carries a call out on the entry of its connection alone, with or without room for a new one. -/
def Call.onEntry (room : Prop) [Decidable room] (entry : Option Peer) :
    Call → Dialogue (Option Peer × Response)
  | add conn address =>
    match entry with
    | some peer => .done (some peer, .result (.error (.peerExists conn)))
    | none =>
      if room then .done (some { conn, address }, .result (.ok ()))
      else .done (none, .result (.error .registryFull))
  | delete conn =>
    match entry with
    | some _ => .done (none, .result (.ok ()))
    | none => .done (none, .result (.error (.peerNotFound conn)))
  | addService conn decl => file conn (.service decl)
  | addCharacteristic conn decl => file conn (.characteristic decl)
  | addDescriptor conn value descriptor => file conn (.descriptor value descriptor)
  | discoverAll conn =>
    match entry with
    | some peer => (fun done => (some done.1, .result done.2)) <$> peer.startWalk
    | none => .done (none, .result (.error (.peerNotFound conn)))
  | event (.discovery _ finding) =>
    match entry with
    | some peer => (fun done => (some done.1, .outcome done.2)) <$> peer.onFinding finding
    | none => .done (none, .outcome none)
  | event _ => .done (entry, .outcome none)
where
  /-- Files an entry that was found by hand. -/
  file (conn : ConnHandle) (finding : Finding) : Dialogue (Option Peer × Response) :=
    match entry with
    | some peer => .done (settledEntry peer (peer.file finding))
    | none => .done (none, .result (.error (.peerNotFound conn)))

/-- Without room a connection that is not registered yet is turned away. -/
theorem add_of_full {address : Address} (unknown : registry.find? conn = none)
    (full : ¬ registry.HasRoom) : registry.add conn address = .error .registryFull := by
  unfold HasRoom at full
  simp [add, unknown, Table.push, full, Except.map]

/-- Registering a connection, as it sees it. -/
theorem view_add (registry : Registry) (conn : ConnHandle) (address : Address) :
    view conn <$> (Call.add conn address).dialogue registry =
      (Call.add conn address).onEntry registry.HasRoom (registry.find? conn) := by
  cases known : registry.find? conn with
  | some peer =>
    have refused : registry.add conn address = .error (.peerExists conn) := by
      simp [Registry.add, known]
    simp only [Call.dialogue, Call.onEntry, refused, settled, Dialogue.map_done, view, known]
  | none =>
    by_cases room : registry.HasRoom
    · have added : registry.add conn address =
          .ok ⟨registry.peers ++ [{ conn := conn, address := address }]⟩ :=
        add_eq_ok_iff.2 ⟨known, room, rfl⟩
      have found := find?_of_add added conn
      rw [if_pos rfl] at found
      simp only [Call.dialogue, Call.onEntry, added, settled, Dialogue.map_done, view, found,
        if_pos room]
    · have refused : registry.add conn address = .error .registryFull := add_of_full known room
      simp only [Call.dialogue, Call.onEntry, refused, settled, Dialogue.map_done, view, known,
        if_neg room]

/-- Dropping a connection, as it sees it. -/
theorem view_delete (registry : Registry) (conn : ConnHandle) :
    view conn <$> (Call.delete conn).dialogue registry =
      (Call.delete conn).onEntry registry.HasRoom (registry.find? conn) := by
  cases known : registry.find? conn with
  | some peer =>
    simp only [Call.dialogue, Call.onEntry, delete, known, settled, Dialogue.map_done, view,
      find?_erase_self]
  | none => simp only [Call.dialogue, Call.onEntry, delete, known, settled, Dialogue.map_done, view]

/-- Filing an entry of a connection, as the connection sees it. -/
theorem view_edit (registry : Registry) (conn : ConnHandle) (finding : Finding) :
    view conn <$> (Dialogue.done (registry.settled (registry.edit conn (·.file finding)))) =
      Call.onEntry.file (registry.find? conn) conn finding := by
  cases known : registry.find? conn with
  | some peer =>
    cases hfile : peer.file finding with
    | ok peer' =>
      have same : peer'.conn = peer.conn := by rw [Peer.file_eq_ok hfile]
      have found := find?_put_of_known known same
      simp only [edit, known, hfile, Except.map, settled, Dialogue.map_done, view, found,
        Call.onEntry.file, settledEntry]
    | error why =>
      simp only [edit, known, hfile, Except.map, settled, Dialogue.map_done, view,
        Call.onEntry.file, settledEntry]
  | none =>
    simp only [edit, known, settled, Dialogue.map_done, view, Call.onEntry.file]

/-- A walk that is started, or refused, stays with its connection. -/
theorem conn_of_startWalk {peer : Peer} {exchanges : List Exchange}
    {done : Peer × Except Fault Unit} (h : peer.startWalk.Yields exchanges done) :
    done.1.conn = peer.conn := by
  unfold Peer.startWalk at h
  split at h
  · obtain ⟨-, rfl⟩ := Dialogue.yields_done_iff.1 h
    rfl
  · rcases h.ask_cases with ⟨rest, -, hrest⟩ | ⟨why, rest, -, hrest⟩
    · obtain ⟨-, rfl⟩ := Dialogue.yields_done_iff.1 hrest
      rfl
    · obtain ⟨-, rfl⟩ := Dialogue.yields_done_iff.1 hrest
      rfl

/-- A dialogue of a registered peer, after which the peer is put back, as its connection sees it. -/
theorem view_put {α : Type} {peer : Peer} (known : registry.find? conn = some peer)
    (response : α → Response) (d : Dialogue (Peer × α))
    (same : ∀ exchanges done, d.Yields exchanges done → done.1.conn = peer.conn) :
    view conn <$> (fun done => (done.1, response done.2)) <$>
        (fun done => (registry.put done.1, done.2)) <$> d =
      (fun done => (some done.1, response done.2)) <$> d := by
  rw [← comp_map, ← comp_map]
  apply Dialogue.map_congr_of_yields
  intro exchanges done hdone
  have found := find?_put_of_known known (same exchanges done hdone)
  exact Prod.ext found rfl

/-- Starting a walk of a connection, as the connection sees it. -/
theorem view_discoverAll (registry : Registry) (conn : ConnHandle) :
    view conn <$> (Call.discoverAll conn).dialogue registry =
      (Call.discoverAll conn).onEntry registry.HasRoom (registry.find? conn) := by
  cases known : registry.find? conn with
  | some peer =>
    have hwalk : registry.discoverAll conn =
        (fun done => (registry.put done.1, done.2)) <$> peer.startWalk := by
      rw [map_eq_pure_bind, discoverAll, known]
    rw [Call.dialogue, hwalk]
    exact view_put known Response.result peer.startWalk fun _ _ h => conn_of_startWalk h
  | none =>
    have hwalk : registry.discoverAll conn =
        .done (registry, .error (.peerNotFound conn)) := by
      rw [discoverAll, known]
    simp only [Call.dialogue, hwalk, Dialogue.map_done, view, known, Call.onEntry]

/-- A finding about a connection, as the connection sees it. -/
theorem view_discovery (registry : Registry) (conn : ConnHandle) (finding : Finding) :
    view conn <$> (Call.event (.discovery conn finding)).dialogue registry =
      (Call.event (.discovery conn finding)).onEntry registry.HasRoom (registry.find? conn) := by
  cases known : registry.find? conn with
  | some peer =>
    have hwalk : registry.onEvent (.discovery conn finding) =
        (fun done => (registry.put done.1, done.2)) <$> peer.onFinding finding := by
      rw [map_eq_pure_bind, onEvent, onFinding, known]
    rw [Call.dialogue, hwalk]
    exact view_put known Response.outcome (peer.onFinding finding) fun _ _ h =>
      (Peer.walkStep_of_onFinding h).conn_eq
  | none =>
    have hwalk : registry.onEvent (.discovery conn finding) = .done (registry, none) := by
      rw [onEvent, onFinding, known]
    simp only [Call.dialogue, hwalk, Dialogue.map_done, view, known, Call.onEntry]

/-- **A call about a connection is a function of its entry**, and of whether there is room for a
new one. -/
theorem Call.view_dialogue (own : call.conn? = some conn) (registry : Registry) :
    view conn <$> call.dialogue registry =
      call.onEntry registry.HasRoom (registry.find? conn) := by
  cases call with
  | add other address =>
    obtain rfl : other = conn := Option.some.inj own
    exact view_add registry other address
  | delete other =>
    obtain rfl : other = conn := Option.some.inj own
    exact view_delete registry other
  | addService other decl =>
    obtain rfl : other = conn := Option.some.inj own
    exact view_edit registry other (.service decl)
  | addCharacteristic other decl =>
    obtain rfl : other = conn := Option.some.inj own
    exact view_edit registry other (.characteristic decl)
  | addDescriptor other value descriptor =>
    obtain rfl : other = conn := Option.some.inj own
    exact view_edit registry other (.descriptor value descriptor)
  | discoverAll other =>
    obtain rfl : other = conn := Option.some.inj own
    exact view_discoverAll registry other
  | event event =>
    cases event with
    | discovery other finding =>
      obtain rfl : other = conn := Option.some.inj own
      exact view_discovery registry other finding
    | _ => rfl

/-- Room only matters to a connection that is not registered yet and asks to be. -/
theorem Call.onEntry_congr {room room' : Prop} [Decidable room] [Decidable room']
    {entry : Option Peer}
    (h : ∀ conn address, call = .add conn address → entry = none → (room ↔ room')) :
    call.onEntry room entry = call.onEntry room' entry := by
  cases call with
  | add conn address =>
    cases entry with
    | some peer => rfl
    | none =>
      have hroom : room ↔ room' := h conn address rfl rfl
      simp only [onEntry, hroom]
  | event event => cases event <;> rfl
  | _ => rfl

/-! ## Turns -/

/-- A turn repeats another if it has the same call, the same exchanges and the same response. -/
structure Turn.Repeats (turn turn' : Turn) : Prop where
  call : turn'.call = turn.call
  exchanges : turn'.exchanges = turn.exchanges
  response : turn'.response = turn.response

/-- In this turn a connection is not registered for want of room. -/
def Turn.TurnedAway (conn : ConnHandle) (turn : Turn) : Prop :=
  (∃ address, turn.call = .add conn address) ∧ turn.response = .result (.error .registryFull)

/-- Two registries that have the same entry for a connection, and room for it if it needs any, are
the same to a call about the connection. -/
theorem Call.view_congr (own : call.conn? = some conn)
    (entry : registry'.find? conn = registry.find? conn)
    (room : ∀ address, call = .add conn address → registry.find? conn = none →
      (registry'.HasRoom ↔ registry.HasRoom)) :
    view conn <$> call.dialogue registry' = view conn <$> call.dialogue registry := by
  rw [view_dialogue own, view_dialogue own, entry]
  apply onEntry_congr
  intro other address hcall unknown
  subst hcall
  obtain rfl : other = conn := Option.some.inj own
  exact room address rfl unknown

/-- **A turn about a connection is decided by its entry, the call and the host**, and by whether
there is room if the connection is to be registered. -/
theorem Turn.repeats_of_entry (own : turn.call.conn? = some conn) (call : turn'.call = turn.call)
    (entry : turn'.before.find? conn = turn.before.find? conn)
    (room : ∀ address, turn.call = .add conn address → turn.before.find? conn = none →
      (turn'.before.HasRoom ↔ turn.before.HasRoom))
    (host : SameHost turn.exchanges turn'.exchanges) :
    turn.Repeats turn' ∧ turn'.after.find? conn = turn.after.find? conn := by
  have seen : (view conn <$> turn.call.dialogue turn.before).Yields turn.exchanges
      (view conn (turn.after, turn.response)) :=
    Dialogue.yields_map_iff.2 ⟨_, turn.yields, rfl⟩
  have seen' : (view conn <$> turn.call.dialogue turn.before).Yields turn'.exchanges
      (view conn (turn'.after, turn'.response)) := by
    rw [← Call.view_congr own entry room, ← call]
    exact Dialogue.yields_map_iff.2 ⟨_, turn'.yields, rfl⟩
  obtain ⟨hexchanges, hview⟩ := seen.eq_of_sameHost seen' host
  obtain ⟨hentry, hresponse⟩ := Prod.ext_iff.1 hview
  exact ⟨⟨call, hexchanges.symm, hresponse.symm⟩, hentry.symm⟩

/-- A turn about a connection can be repeated on every registry with the same entry for it. -/
theorem Turn.exists_repeats (own : turn.call.conn? = some conn)
    (entry : registry.find? conn = turn.before.find? conn)
    (room : ∀ address, turn.call = .add conn address → turn.before.find? conn = none →
      (registry.HasRoom ↔ turn.before.HasRoom)) :
    ∃ turn', turn'.before = registry ∧ turn.Repeats turn' ∧
      turn'.after.find? conn = turn.after.find? conn := by
  have seen : (view conn <$> turn.call.dialogue registry).Yields turn.exchanges
      (view conn (turn.after, turn.response)) := by
    rw [Call.view_congr own entry room]
    exact Dialogue.yields_map_iff.2 ⟨_, turn.yields, rfl⟩
  obtain ⟨⟨after, response⟩, hyields, hview⟩ := Dialogue.yields_map_iff.1 seen
  obtain ⟨hentry, hresponse⟩ := Prod.ext_iff.1 hview
  exact ⟨⟨registry, turn.call, turn.exchanges, response, after, hyields⟩, rfl,
    ⟨rfl, rfl, hresponse.symm⟩, hentry.symm⟩

/-- A connection that was to be registered, and was not turned away, had room. -/
theorem Turn.hasRoom_of_not_turnedAway {address : Address} (adds : turn.call = .add conn address)
    (unknown : turn.before.find? conn = none) (admitted : ¬ turn.TurnedAway conn) :
    turn.before.HasRoom := by
  by_contra full
  refine admitted ⟨⟨address, adds⟩, ?_⟩
  have refused : turn.before.add conn address = .error .registryFull := add_of_full unknown full
  have step := turn.step
  rw [adds] at step
  generalize turn.response = response at step
  generalize turn.after = after at step
  generalize turn.exchanges = exchanges at step
  cases step with
  | added _ _ _ h =>
    rw [refused] at h
    cases h
  | unadded _ _ why h =>
    rw [refused] at h
    cases h
    rfl
  | filed h | unfiled h | unfilable h => cases h

/-! ## How many peers there can be -/

/-- A turn registers no more peers than there is room for. -/
theorem Step.length_le {exchanges : List Exchange} {response : Response}
    (step : Step registry call exchanges registry' response)
    (bounded : registry.peers.length ≤ Settings.maxPeers) :
    registry'.peers.length ≤ Settings.maxPeers := by
  have hput : ∀ peer, (registry.put peer).peers.length ≤ Settings.maxPeers := by
    intro peer
    rwa [put, List.length_map]
  cases step with
  | added conn address registry' h =>
    obtain ⟨-, room, rfl⟩ := add_eq_ok_iff.1 h
    rw [List.length_append]
    exact room
  | deleted conn peer known => exact Nat.le_trans (List.length_filter_le _ _) bounded
  | filed | walkStarted | walkRefused | walkRunning | walked => exact hput _
  | unadded | undeleted | unfiled | unfilable | walkUnknown | ignored => exact bounded

/-- The number of peers is bounded in every run. -/
theorem Run.length_le (run : Run {} history registry) :
    registry.peers.length ≤ Settings.maxPeers := by
  induction run with
  | nil => exact Nat.zero_le _
  | concat run turn next ih => exact turn.step.length_le (next ▸ ih)

/-- Connections that no turn is about are not registered. -/
theorem Run.find?_of_ne (run : Run {} history registry)
    (other : ∀ turn ∈ history, turn.call.conn? ≠ some conn) : registry.find? conn = none := by
  induction run with
  | nil => rfl
  | concat run turn next ih =>
    rw [turn.step.find?_of_ne (other turn (by simp)), next]
    exact ih fun t ht => other t (List.mem_append_left _ ht)

/-- While all calls are about two connections, each of them has room. -/
theorem Run.hasRoom_of_two (run : Run {} history registry) {other : ConnHandle}
    (two : ∀ turn ∈ history, ∀ c, turn.call.conn? = some c → c = conn ∨ c = other)
    (unknown : registry.find? conn = none) : registry.HasRoom := by
  have hconn : ∀ peer ∈ registry.peers, peer.conn = other := by
    intro peer hpeer
    by_contra hne
    have hunknown : registry.find? peer.conn = none := by
      by_cases hsame : peer.conn = conn
      · rw [hsame, unknown]
      · apply run.find?_of_ne
        intro turn hturn hcall
        rcases two turn hturn _ hcall with h | h
        · exact hsame h
        · exact hne h
    have hfree := List.find?_eq_none.1 hunknown peer hpeer
    exact hfree (decide_eq_true rfl)
  have hsame : registry.peers.map (·.conn) = List.replicate registry.peers.length other := by
    apply List.eq_replicate_iff.2
    refine ⟨List.length_map _, ?_⟩
    intro c hc
    obtain ⟨peer, hpeer, rfl⟩ := List.mem_map.1 hc
    exact hconn peer hpeer
  have hnodup : (registry.peers.map (·.conn)).Nodup := run.distinct.1
  rw [hsame, List.nodup_replicate] at hnodup
  exact Nat.lt_of_le_of_lt hnodup (by decide)

/-! ## The turns of one connection -/

/-- The turns of a history that are about a connection, in order. -/
def ownTurns (conn : ConnHandle) (history : List Turn) : List Turn :=
  history.filter fun turn => turn.call.conn? = some conn

theorem ownTurns_concat_of_own (own : turn.call.conn? = some conn) :
    ownTurns conn (history ++ [turn]) = ownTurns conn history ++ [turn] := by
  simp [ownTurns, own]

theorem ownTurns_concat_of_other (other : turn.call.conn? ≠ some conn) :
    ownTurns conn (history ++ [turn]) = ownTurns conn history := by
  simp [ownTurns, other]

/-- What happens to a connection in a history that ends with a registry is what happens to it in a
run of its own calls alone. -/
structure ServedAlone (conn : ConnHandle) (history : List Turn) (registry : Registry) : Prop where
  /-- There is a run in which its own turns are repeated and nothing else happens, and it ends with
  the same entry. -/
  exists_alone : ∃ own alone, Run {} own alone ∧
    List.Forall₂ Turn.Repeats (ownTurns conn history) own ∧
      alone.find? conn = registry.find? conn
  /-- Every run of its own calls with the same host is like that. -/
  unique : ∀ own alone, Run {} own alone →
    own.map (·.call) = (ownTurns conn history).map (·.call) →
      SameHost ((ownTurns conn history).flatMap (·.exchanges)) (own.flatMap (·.exchanges)) →
        List.Forall₂ Turn.Repeats (ownTurns conn history) own ∧
          alone.find? conn = registry.find? conn

/-- The last turn of a run begins where the rest of the run ended. -/
theorem run_concat_iff {start : Registry} :
    Run start (history ++ [turn]) registry ↔
      Run start history turn.before ∧ registry = turn.after := by
  constructor
  · intro run
    generalize hwhole : history ++ [turn] = whole at run
    cases run with
    | nil => simp at hwhole
    | @concat history' _ run turn' next =>
      obtain ⟨rfl, hturn⟩ := List.append_inj' hwhole rfl
      obtain rfl : turn = turn' := by simpa using hturn
      exact ⟨next ▸ run, rfl⟩
  · rintro ⟨run, rfl⟩
    exact run.concat turn rfl

/-- A run without turns goes nowhere. -/
theorem run_nil_iff {start : Registry} : Run start [] registry ↔ registry = start := by
  constructor
  · intro run
    generalize hnil : ([] : List Turn) = history at run
    cases run with
    | nil => rfl
    | concat run turn next => simp at hnil
  · rintro rfl
    exact .nil

/-- A list whose calls are those of the turns about a connection has no others. -/
theorem conn?_of_calls {own : List Turn}
    (calls : own.map (·.call) = (ownTurns conn history).map (·.call)) :
    ∀ turn ∈ own, ∀ c, turn.call.conn? = some c → c = conn ∨ c = conn := by
  intro turn hturn c hc
  have hcall : turn.call ∈ (ownTurns conn history).map (·.call) :=
    calls ▸ List.mem_map_of_mem hturn
  obtain ⟨t, ht, hsame⟩ := List.mem_map.1 hcall
  have hown : t.call.conn? = some conn := of_decide_eq_true (List.mem_filter.1 ht).2
  rw [hsame] at hown
  exact .inl (Option.some.inj (hc.symm.trans hown))

/-- A connection that was not turned away in a run has room in the run exactly when it has room in a
run of its own calls, because it always has. -/
theorem hasRoom_iff_of_calls {own : List Turn} {alone : Registry} (run : Run {} own alone)
    (calls : own.map (·.call) = (ownTurns conn history).map (·.call))
    (entry : alone.find? conn = turn.before.find? conn) (admitted : ¬ turn.TurnedAway conn) :
    ∀ address, turn.call = .add conn address → turn.before.find? conn = none →
      (alone.HasRoom ↔ turn.before.HasRoom) := by
  intro address adds unknown
  have halone : alone.HasRoom :=
    run.hasRoom_of_two (conn?_of_calls calls) (entry.trans unknown)
  exact iff_of_true halone (Turn.hasRoom_of_not_turnedAway adds unknown admitted)

/-- Turns that repeat others have the same calls and the same exchanges. -/
theorem Turn.Repeats.lists {turns own : List Turn} (h : List.Forall₂ Turn.Repeats turns own) :
    own.map (·.call) = turns.map (·.call) ∧
      own.flatMap (·.exchanges) = turns.flatMap (·.exchanges) := by
  induction h with
  | nil => exact ⟨rfl, rfl⟩
  | cons repeats _ ih =>
    obtain ⟨hcalls, hexchanges⟩ := ih
    simp only [List.map_cons, List.flatMap_cons, repeats.call, repeats.exchanges, hcalls,
      hexchanges, and_self]

/-- The turns of a connection that was never turned away can be repeated alone. -/
theorem Run.exists_alone (run : Run {} history registry)
    (admitted : ∀ turn ∈ history, ¬ turn.TurnedAway conn) :
    ∃ own alone, Run {} own alone ∧ List.Forall₂ Turn.Repeats (ownTurns conn history) own ∧
      alone.find? conn = registry.find? conn := by
  induction run with
  | nil => exact ⟨[], {}, .nil, .nil, rfl⟩
  | @concat history _ run turn next ih =>
    obtain ⟨own, alone, hrun, hrepeats, hentry⟩ :=
      ih fun t ht => admitted t (List.mem_append_left _ ht)
    rw [← next] at hentry
    by_cases hown : turn.call.conn? = some conn
    · have room := hasRoom_iff_of_calls hrun (Turn.Repeats.lists hrepeats).1 hentry
        (admitted turn (by simp))
      obtain ⟨turn', hbefore, hturn, hafter⟩ := Turn.exists_repeats hown hentry room
      refine ⟨own ++ [turn'], turn'.after, hrun.concat turn' hbefore, ?_, hafter⟩
      rw [ownTurns_concat_of_own hown]
      exact List.rel_append hrepeats (.cons hturn .nil)
    · refine ⟨own, alone, hrun, ?_, hentry.trans ?_⟩
      · rwa [ownTurns_concat_of_other hown]
      · exact (turn.step.find?_of_ne hown).symm

/-- A run of the calls of a connection that was never turned away repeats its turns, if the host is
the same. -/
theorem Run.repeats_alone (run : Run {} history registry)
    (admitted : ∀ turn ∈ history, ¬ turn.TurnedAway conn) {own : List Turn} {alone : Registry}
    (hrun : Run {} own alone)
    (calls : own.map (·.call) = (ownTurns conn history).map (·.call))
    (host : SameHost ((ownTurns conn history).flatMap (·.exchanges)) (own.flatMap (·.exchanges))) :
    List.Forall₂ Turn.Repeats (ownTurns conn history) own ∧
      alone.find? conn = registry.find? conn := by
  induction run generalizing own alone with
  | nil =>
    obtain rfl : own = [] := List.map_eq_nil_iff.1 calls
    obtain rfl := run_nil_iff.1 hrun
    exact ⟨.nil, rfl⟩
  | @concat history _ run turn next ih =>
    have hbefore : ∀ t ∈ history, ¬ t.TurnedAway conn :=
      fun t ht => admitted t (List.mem_append_left _ ht)
    by_cases hown : turn.call.conn? = some conn
    · rw [ownTurns_concat_of_own hown] at calls host ⊢
      rw [List.map_append] at calls
      obtain ⟨own, last, rfl, hcalls, hlast⟩ := List.map_eq_append_iff.1 calls
      obtain ⟨turn', rfl, hcall⟩ := List.map_eq_singleton_iff.1 hlast
      obtain ⟨hown', rfl⟩ := run_concat_iff.1 hrun
      rw [List.flatMap_append, List.flatMap_append] at host
      obtain ⟨hrepeats, hentry⟩ := ih hbefore hown' hcalls (host.of_append _ _)
      rw [next.symm] at hentry
      -- The host of the last turn is the same because everything before it was the same.
      rw [(Turn.Repeats.lists hrepeats).2, sameHost_append_iff] at host
      have room := hasRoom_iff_of_calls hown' hcalls hentry (admitted turn (by simp))
      obtain ⟨hturn, hafter⟩ := Turn.repeats_of_entry hown hcall hentry room (by simpa using host)
      exact ⟨List.rel_append hrepeats (.cons hturn .nil), hafter⟩
    · rw [ownTurns_concat_of_other hown] at calls host ⊢
      obtain ⟨hrepeats, hentry⟩ := ih hbefore hrun calls host
      refine ⟨hrepeats, hentry.trans ?_⟩
      rw [turn.step.find?_of_ne hown, next]

/-- A connection that is never turned away is served as if it were alone. -/
theorem Run.servedAlone (run : Run {} history registry)
    (admitted : ∀ turn ∈ history, ¬ turn.TurnedAway conn) :
    ServedAlone conn history registry where
  exists_alone := run.exists_alone admitted
  unique _ _ hrun calls host := run.repeats_alone admitted hrun calls host

/-- While all calls are about two connections, neither of them is turned away. -/
theorem Run.not_turnedAway_of_two (run : Run {} history registry) {other : ConnHandle}
    (two : ∀ turn ∈ history, ∀ c, turn.call.conn? = some c → c = conn ∨ c = other) :
    ∀ turn ∈ history, ¬ turn.TurnedAway conn := by
  induction run with
  | nil => simp
  | @concat history _ run last next ih =>
    have hbefore : ∀ turn ∈ history, ∀ c, turn.call.conn? = some c → c = conn ∨ c = other :=
      fun turn hturn => two turn (List.mem_append_left _ hturn)
    intro turn hturn
    rcases List.mem_append.1 hturn with hturn | hturn
    · exact ih hbefore turn hturn
    · obtain rfl := List.mem_singleton.1 hturn
      rintro ⟨⟨address, adds⟩, refused⟩
      have step := turn.step
      rw [adds, refused, next] at step
      generalize turn.after = after at step
      generalize turn.exchanges = exchanges at step
      cases step with
      | unadded _ _ _ h =>
        by_cases unknown : turn.before.find? conn = none
        · have room := run.hasRoom_of_two hbefore (next ▸ unknown)
          rw [add_eq_ok_iff.2 ⟨next ▸ unknown, room, rfl⟩] at h
          cases h
        · obtain ⟨peer, known⟩ := Option.ne_none_iff_exists'.1 unknown
          rw [next] at known
          simp [add, known] at h
      | unfiled h => cases h

/-- What it means for the peers of a run to be independent of each other. -/
structure Independent (history : List Turn) (registry : Registry) : Prop where
  /-- No two registered peers have the same connection. -/
  distinct : registry.Distinct
  /-- There are never more peers than there is room for. -/
  length_le : registry.peers.length ≤ Settings.maxPeers
  /-- A turn leaves the entries of the connections that it is not about as they are. -/
  others : ∀ turn ∈ history, ∀ conn, turn.call.conn? ≠ some conn →
    turn.after.find? conn = turn.before.find? conn
  /-- A turn about a connection is decided by its entry, the call and the host.  Only a connection
  that is to be registered also depends on there being room for it. -/
  decided : ∀ turn ∈ history, ∀ conn, turn.call.conn? = some conn → ∀ turn' : Turn,
    turn'.call = turn.call → turn'.before.find? conn = turn.before.find? conn →
      ((∃ address, turn.call = .add conn address) → turn.before.find? conn = none →
        (turn'.before.HasRoom ↔ turn.before.HasRoom)) →
        SameHost turn.exchanges turn'.exchanges →
          turn.Repeats turn' ∧ turn'.after.find? conn = turn.after.find? conn
  /-- A connection that was never turned away is served as if it were alone. -/
  alone : ∀ conn, (∀ turn ∈ history, ¬ turn.TurnedAway conn) → ServedAlone conn history registry
  /-- If all calls are about two connections, each of them is served as if it were alone. -/
  two : ∀ conn other,
    (∀ turn ∈ history, ∀ c, turn.call.conn? = some c → c = conn ∨ c = other) →
      ServedAlone conn history registry ∧ ServedAlone other history registry

/-- **Peers are independent.**  In every run of a registry that began empty the connections are
distinct and not too many, a turn has no effect on the entries of other connections, it is decided
by the entry of its own one, and so every interleaving of the calls of two connections gives to
each of them what its own calls alone would have given. -/
theorem Run.peers_independent (run : Run {} history registry) : Independent history registry where
  distinct := run.distinct.1
  length_le := run.length_le
  others turn _ _ other := turn.step.find?_of_ne other
  decided turn _ conn own turn' call entry room host :=
    Turn.repeats_of_entry own call entry (fun address adds => room ⟨address, adds⟩) host
  alone _ admitted := run.servedAlone admitted
  two conn other hcalls := by
    constructor
    · exact run.servedAlone (run.not_turnedAway_of_two hcalls)
    · have hswapped : ∀ turn ∈ history, ∀ c, turn.call.conn? = some c → c = other ∨ c = conn :=
        fun turn hturn c hc => (hcalls turn hturn c hc).symm
      exact run.servedAlone (run.not_turnedAway_of_two hswapped)

/-- The calls of connection 5 in `interleaved`.  Its walk finds a service, the host does not look
into it, and the walk is started again. -/
def fiveAlone : List (Call × Script) :=
  [(.add 5 (.ofBytes .publicDevice 1 2 3 4 5 6), {}), (.discoverAll 5, {}),
    (.event (.discovery 5 (.service ⟨Uuid.cameraService, 10, 20⟩)), {}),
    (.event (.discovery 5 (.servicesDone .success)),
      { rules := [(.discoverCharacteristics, { fault := .busy })] }),
    (.discoverAll 5, {})]

/-- Two connections whose calls alternate.  Connection 6 is registered twice, once too often, is
looked into, and is dropped in the middle of its walk. -/
def interleaved : List (Call × Script) :=
  let six : List (Call × Script) :=
    [.add 6 (.ofBytes .publicDevice 6 5 4 3 2 1), .discoverAll 6,
      .add 6 (.ofBytes .publicDevice 1 2 3 4 5 6),
      .event (.discovery 6 (.service ⟨Uuid.cameraService, 30, 40⟩)), .delete 6].map (·, {})
  (six.zip fiveAlone).flatMap fun calls => [calls.1, calls.2]

/-- In `interleaved` connection 5 gets what it gets alone. -/
theorem peers_independent_interleaved :
    let history := playback {} interleaved
    List.Forall₂ Turn.Repeats (ownTurns 5 history) (playback {} fiveAlone) ∧
      (after {} fiveAlone).find? 5 = (after {} interleaved).find? 5 ∧
        (∃ peer, (after {} interleaved).find? 5 = some peer ∧ peer.progress = .services) ∧
          ServedAlone 6 history (after {} interleaved) := by
  intro history
  have independent := Run.peers_independent (run_playback {} interleaved)
  have two : ∀ turn ∈ history, turn.call.conn? = some 5 ∨ turn.call.conn? = some 6 := by decide
  obtain ⟨five, six⟩ := independent.two 5 6 fun turn hturn c hc => by
    rcases two turn hturn with h | h
    · exact .inl (Option.some.inj (hc.symm.trans h))
    · exact .inr (Option.some.inj (hc.symm.trans h))
  obtain ⟨hrepeats, hentry⟩ := five.unique _ _ (run_playback {} fiveAlone) (by decide) (by decide)
  exact ⟨hrepeats, hentry, ⟨_, rfl, rfl⟩, six⟩

end Registry

end CameraCentral
