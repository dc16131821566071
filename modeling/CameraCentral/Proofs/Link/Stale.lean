import CameraCentral.Proofs.Link.Session
import CameraCentral.Proofs.Link.Traffic
import CameraCentral.Proofs.Peer.Distinct

/-!
# Events that come too late

Events wait in a queue, so the connection that one is about may be gone when it is its turn, and
what a walk found may be reported when the walk is over or another one is under way.  `Stale` says
which events come too late in this sense, and `onEvent_of_stale` that such an event does nothing
at all: it leaves the link as it is and asks the host for nothing.

Two things that hold in every run are behind this.  A connection that is down may still be the
camera's as far as the handler of the event can see, and then the camera would be dropped; but the
connection of the camera is registered (`Run.homed`).  And a finding that is not expected is
followed by putting the peer back, which is no change as long as no two peers have the same
connection (`Run.distinct_peers`).
-/

namespace CameraCentral

namespace Link

variable {link link' : Link} {call : Call} {exchanges : List Exchange} {response : Response}
  {conn : ConnHandle} {reaction : Reaction} {event : Event}

/-! ## The registry of the link -/

/-- No two peers of the link have the same connection after one of them was dropped. -/
theorem Terminates.distinct (down : link.Terminates conn exchanges link' reaction)
    (distinct : link.peers.Distinct) : link'.peers.Distinct := by
  cases down with
  | accepted => exact distinct
  | refused why =>
    rw [peers_dropLink]
    exact distinct.erase conn

/-- In every turn the connections of the peers stay distinct. -/
theorem Step.distinct (step : Step link call exchanges link' response)
    (distinct : link.peers.Distinct) : link'.peers.Distinct := by
  have refreshed : ∀ peer, (link.refreshed peer).peers.Distinct := fun peer => distinct.put peer
  cases step with
  | scan step =>
    rw [step.peers_eq]
    exact distinct
  | ignored event h => exact distinct
  | writeDenied payload why denied => exact distinct
  | written payload conn handle _ _ _ _ answer => exact distinct
  | unregistered conn address status success why full down => exact down.distinct distinct
  | securing conn address status success peers added => exact distinct.of_add added
  | insecure conn address status success peers added why down =>
    exact down.distinct (distinct.of_add added)
  | unencrypted conn status failed peer known down => exact down.distinct distinct
  | walkRunning conn status success peer known running => exact refreshed peer
  | walkStarted conn status success peer known halted => exact refreshed _
  | walkRefused conn status success peer known halted why down => exact down.distinct (refreshed _)
  | disconnect conn reason => exact (Terminates.refused .busy).distinct distinct
  | pairingIgnored conn unknown => exact distinct
  | pairingRetried conn peer known answer => exact distinct
  | walkGoesOn conn finding peer peer' known exchanges walk => exact refreshed peer'
  | walkComplete conn finding peer peer' known exchanges writes walk count subscription =>
    rw [peers_subscribed]
    exact refreshed peer'
  | walkFailed conn finding peer peer' known exchanges why walk down =>
    exact down.distinct (refreshed peer')

/-- In every run the connections of the peers are distinct. -/
theorem Run.distinct_peers {scanner : Scanner} {history : List Turn}
    (run : Run (new scanner) history link) : link.peers.Distinct :=
  run.invariant (fun _ link => link.peers.Distinct) List.nodup_nil
    fun _ turn distinct => turn.step.distinct distinct

/-! ## Events that come too late -/

/-- The event comes too late to mean anything. -/
inductive Stale (link : Link) : Event → Prop
  /-- The event is about a connection that is not registered.  That a connection is up is news about
  one that is not registered yet, and that one is down may be the answer to the connection that is
  being made. -/
  | unregistered (event : Event) (conn : ConnHandle) (about : event.conn? = some conn)
      (unknown : link.peers.find? conn = none)
      (old : ∀ address status, event ≠ .linkEstablished conn address status)
      (settled : ∀ reason, event = .disconnect conn reason →
        ¬ (link.stage = .connecting ∧ link.camera.conn = none)) : Stale link event
  /-- The walk of the connection does not wait for the finding: none is under way, or it has come to
  another phase. -/
  | unexpected (conn : ConnHandle) (finding : Finding) (peer : Peer)
      (known : link.peers.find? conn = some peer) (h : ¬ peer.progress.Expects finding) :
    Stale link (.discovery conn finding)

/-- What is answered to an event that comes too late: a peer that is not known is not paired again,
and otherwise there is nothing to do. -/
def lateReaction : Event → Reaction
  | .repeatPairing _ => .ignorePairing
  | _ => .nothing

/-- A connection that is not registered is none of the link's own, as long as none is being made. -/
theorem not_owns_of_unknown (homed : link.Homed) (unknown : link.peers.find? conn = none)
    (settled : ¬ (link.stage = .connecting ∧ link.camera.conn = none)) : ¬ link.Owns conn := by
  rintro (mine | ⟨unconnected, pending⟩)
  · have registered := homed conn mine
    rw [unknown] at registered
    cases registered
  · refine settled ⟨pending, ?_⟩
    rwa [Camera.IsConnected, Bool.not_eq_true, Option.isSome_eq_false_iff,
      Option.isNone_iff_eq_none] at unconnected

/-- A connection that is neither registered nor the link's own is not missed. -/
theorem dropLink_of_unknown (unknown : link.peers.find? conn = none) (h : ¬ link.Owns conn) :
    link.dropLink conn = (link, .nothing) := by
  refine if_neg ?_
  rw [unknown]
  simpa using h

/-- A finding that is not expected leaves the walk as it is. -/
theorem onFinding_of_unexpected {peer : Peer} {finding : Finding}
    (h : ¬ peer.progress.Expects finding) : peer.onFinding finding = .done (peer, none) := by
  unfold Peer.onFinding
  split
  case h_7 => rfl
  all_goals
    rename_i phase
    rw [phase] at h
    exact absurd trivial h

/-- **An event that comes too late does nothing.** -/
theorem onEvent_of_stale (homed : link.Homed) (distinct : link.peers.Distinct)
    (stale : link.Stale event) : link.onEvent event = .done (link, lateReaction event) := by
  cases stale with
  | unregistered _ conn about unknown old settled =>
    cases event with
    | advertisement _ | scanComplete _ | scanRestartDue => cases about
    | linkEstablished _ address status =>
      obtain rfl := Option.some.inj about
      exact absurd rfl (old address status)
    | encryptionChange _ status =>
      obtain rfl := Option.some.inj about
      rw [onEvent, onEncryptionChange, unknown]
      rfl
    | disconnect _ reason =>
      obtain rfl := Option.some.inj about
      have hnot := not_owns_of_unknown homed unknown (settled reason rfl)
      rw [onEvent, dropLink_of_unknown unknown hnot]
      rfl
    | repeatPairing _ =>
      obtain rfl := Option.some.inj about
      rw [onEvent, onRepeatPairing, unknown]
      rfl
    | discovery _ finding =>
      obtain rfl := Option.some.inj about
      rw [onEvent, onFinding, Registry.onFinding, unknown]
      rfl
    | mtuChanged _ _ | writeComplete _ _ _ | notification _ _ _ _ => rfl
  | unexpected conn finding peer known h =>
    calc link.onFinding conn finding
        = .done (link.refreshed peer, .nothing) := by
          rw [onFinding_eq known, onFinding_of_unexpected h]
          rfl
      _ = .done (link, .nothing) := by rw [refreshed, distinct.put_eq_self known]

/-- A turn in which an event comes too late changes nothing and asks for nothing. -/
theorem Turn.of_stale {turn : Turn} (homed : turn.before.Homed)
    (distinct : turn.before.peers.Distinct) (reports : turn.call = .event event)
    (stale : turn.before.Stale event) :
    turn.after = turn.before ∧ turn.exchanges = [] ∧
      turn.response = .reaction (lateReaction event) := by
  have yields := turn.yields
  rw [reports, Call.dialogue, onEvent_of_stale homed distinct stale, Dialogue.map_done,
    Dialogue.yields_done_iff, Prod.mk.injEq] at yields
  obtain ⟨hexchanges, hafter, hresponse⟩ := yields
  exact ⟨hafter, hexchanges, hresponse⟩

/-- **Events that come too late have no effect**, neither one of them nor any number in a row.  In
every link that a new one can become, such an event leaves the stage, the scanner, the registry and
the camera as they are, asks the host for nothing, and is answered with nothing, or with a refusal
if it asks for a pairing. -/
theorem Run.stale_events_ignored {scanner : Scanner} {history : List Turn}
    (run : Run (new scanner) history link) :
    (∀ event, link.Stale event → link.onEvent event = .done (link, lateReaction event)) ∧
    ∀ (later : List Turn) (link' : Link), Run link later link' →
      (∀ turn ∈ later, ∃ event, turn.call = .event event ∧ turn.before.Stale event) →
        link' = link ∧ ∀ turn ∈ later, turn.before = link ∧ turn.after = link ∧
          turn.exchanges = [] ∧
            ∀ event, turn.call = .event event →
              turn.response = .reaction (lateReaction event) := by
  have single : ∀ turn : Turn, turn.before = link →
      (∃ event, turn.call = .event event ∧ turn.before.Stale event) →
        turn.after = link ∧ turn.exchanges = [] ∧
          ∀ event, turn.call = .event event → turn.response = .reaction (lateReaction event) := by
    rintro turn rfl ⟨event, reports, stale⟩
    obtain ⟨hafter, hexchanges, hresponse⟩ :=
      Turn.of_stale run.homed run.distinct_peers reports stale
    refine ⟨hafter, hexchanges, fun other hother => ?_⟩
    obtain rfl : event = other := Call.event.inj (reports.symm.trans hother)
    exact hresponse
  refine ⟨fun event stale => onEvent_of_stale run.homed run.distinct_peers stale, ?_⟩
  intro later link' run' stale
  obtain ⟨hbefore, hlink⟩ := run'.forward (p := fun middle => middle = link) rfl
    fun turn hturn hstart => (single turn hstart (stale turn hturn)).1
  refine ⟨hlink, fun turn hturn => ⟨hbefore turn hturn, ?_⟩⟩
  exact single turn (hbefore turn hturn) (stale turn hturn)

/-- Reports of a connection that was never there, and of a walk that is over. -/
def echoes : List Event :=
  [.disconnect 9 .success, .discovery 5 (.servicesDone .success), .repeatPairing 9,
    .encryptionChange 9 .success, .discovery 5 (.service ⟨Uuid.cameraService, 1, 3⟩)]

/-- After the visit these reports come too late, and leave everything as it is. -/
theorem stale_events_ignored_echoes :
    let link := after (new {}) visit
    let calls : List (Call × Script) := echoes.map fun event => (.event event, {})
    (∀ event ∈ echoes, link.Stale event) ∧
      link.onEvent (.repeatPairing 9) = .done (link, .ignorePairing) ∧ after link calls = link ∧
        ∀ turn ∈ playback link calls, turn.exchanges = [] := by
  intro link calls
  have unknown : link.peers.find? 9 = none := by decide
  have connected : link.camera.conn ≠ none := by decide
  have walked : ∀ finding, link.Stale (.discovery 5 finding) := by
    intro finding
    refine .unexpected 5 finding _ rfl ?_
    cases finding <;> exact id
  have stale : ∀ event ∈ echoes, link.Stale event := by
    have gone : ∀ event : Event, event.conn? = some 9 →
        (∀ address status, event ≠ .linkEstablished 9 address status) → link.Stale event :=
      fun event about old => .unregistered event 9 about unknown old fun _ _ pending =>
        connected pending.2
    simp only [echoes, List.forall_mem_cons, List.not_mem_nil, false_implies, implies_true,
      and_true]
    exact ⟨gone _ rfl (by simp), walked _, gone _ rfl (by simp), gone _ rfl (by simp), walked _⟩
  obtain ⟨single, many⟩ := Run.stale_events_ignored (run_playback (new {}) visit)
  have reported : ∀ turn ∈ playback link calls,
      turn.before = link ∧ turn.call ∈ echoes.map Call.event := by decide
  obtain ⟨hlink, hturns⟩ := many _ _ (run_playback link calls) fun turn hturn => by
    obtain ⟨hbefore, hcall⟩ := reported turn hturn
    obtain ⟨event, hevent, hreports⟩ := List.mem_map.1 hcall
    exact ⟨event, hreports.symm, hbefore ▸ stale event hevent⟩
  exact ⟨stale, single _ (stale _ (by decide)), hlink, fun turn hturn => (hturns turn hturn).2.2.1⟩

end Link

end CameraCentral
