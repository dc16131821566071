import CameraCentral.Proofs.History
import CameraCentral.Proofs.Peer.Agenda
import CameraCentral.Proofs.Peer.Distinct

/-!
# One outcome for each walk

A walk is accepted when the host takes on its first request, and it is over when an outcome is
reported for it.  In between it has exactly one request out: the one that the host took on last, and
that no finding has ended the answer to.  After that it says nothing more.

Nothing of this is kept by the registry, which only knows the place of each walk.  It is told by the
history: `Walking` says that a walk was accepted and has no outcome yet, `lastWalk` is the part of
the history that belongs to the walk that was accepted last, and `unanswered` lists the requests of
a history to which the answer has not ended.  `Turn.effect` lists what a turn can do to the peer of
one connection, and `Followed` is the invariant that ties the place of the walk to the history.
-/

namespace CameraCentral

/-- A walk that reports an outcome is not under way any more. -/
theorem Progress.Reports.not_inFlight {progress : Progress} {outcome : Outcome}
    (reports : progress.Reports (some outcome)) : ¬ progress.InFlight := by
  cases outcome with
  | complete => exact fun running => running.ne_complete reports
  | failed why =>
    obtain rfl : progress = .failed := reports
    exact id

/-! ## Questions and answers -/

/-- The kind of request to which a finding ends the answer, if it ends one. -/
def Finding.answers? : Finding → Option Request.Kind
  | servicesDone _ => some .discoverServices
  | characteristicsDone _ => some .discoverCharacteristics
  | descriptorsDone _ => some .discoverDescriptors
  | service _ | characteristic _ | descriptor _ _ => none

/-- The kind of request to which a walk at this place waits for the end of the answer. -/
def Progress.awaits? : Progress → Option Request.Kind
  | services => some .discoverServices
  | characteristics _ => some .discoverCharacteristics
  | descriptors _ _ => some .discoverDescriptors
  | notStarted | complete | failed => none

/-- What ends the answer for which a walk waits is a finding that the walk expects, and no entry. -/
theorem Progress.answers?_eq_iff {progress : Progress} {finding : Finding}
    (running : progress.InFlight) :
    finding.answers? = progress.awaits? ↔
      progress.Expects finding ∧ finding.status?.isSome := by
  cases progress with
  | notStarted | complete | failed => exact running.elim
  | services | characteristics _ | descriptors _ _ =>
    cases finding <;> simp [awaits?, Finding.answers?, Expects, Finding.status?]

namespace Peer

variable {peer peer' : Peer} {finding : Finding} {exchanges : List Exchange}

/-- A walk that asks on and is not over has made one request, which the host took on, and waits for
the answer. -/
theorem AskStep.asks (step : AskStep peer exchanges peer' none) :
    ∃ request, exchanges = [⟨request, .accepted⟩] ∧ request.conn? = some peer.conn ∧
      peer'.progress.awaits? = some request.kind := by
  cases step with
  | characteristics span _ => exact ⟨_, rfl, rfl, rfl⟩
  | descriptors slot _ => exact ⟨_, rfl, rfl, rfl⟩

/-- A finding that does not end a walk either leaves open what the walk asked last, or ends the
answer to it, and then the walk has asked one thing more. -/
theorem WalkStep.asks (walk : peer.WalkStep finding exchanges peer' none)
    (running : peer.progress.InFlight) :
    finding.answers? ≠ peer.progress.awaits? ∧ exchanges = [] ∧
        peer'.progress = peer.progress ∨
      finding.answers? = peer.progress.awaits? ∧
        ∃ request, exchanges = [⟨request, .accepted⟩] ∧ request.conn? = some peer.conn ∧
          peer'.progress.awaits? = some request.kind := by
  rw [ne_eq, Progress.answers?_eq_iff running]
  cases walk with
  | unexpected unexpected => exact .inl ⟨fun h => unexpected h.1, rfl, rfl⟩
  | filed expected entry peer' h =>
    refine .inl ⟨fun h => ?_, rfl, by rw [file_eq_ok h]⟩
    rw [entry] at h
    exact absurd h.2 (by simp)
  | goesOn expected status done success yields step =>
    exact .inr ⟨⟨expected, by rw [done]; rfl⟩, step.asks⟩

end Peer

namespace Registry

variable {registry : Registry} {conn : ConnHandle} {turn : Turn} {past : List Turn} {peer : Peer}

/-! ## What a history says about a walk -/

/-- In this turn a connection is registered. -/
def Turn.Adds (conn : ConnHandle) (turn : Turn) : Prop :=
  (∃ address, turn.call = .add conn address) ∧ turn.response = .result (.ok ())

/-- In this turn a walk is accepted for a connection: the host takes on to report its services. -/
def Turn.Accepts (conn : ConnHandle) (turn : Turn) : Prop :=
  ⟨.discoverServices conn, .accepted⟩ ∈ turn.exchanges

/-- In this turn an outcome is reported for a connection. -/
def Turn.Concludes (conn : ConnHandle) (turn : Turn) : Prop :=
  ∃ outcome, turn.Reports conn outcome

instance (conn : ConnHandle) : DecidablePred (Turn.Accepts conn) :=
  fun turn => inferInstanceAs (Decidable (_ ∈ turn.exchanges))

instance (conn : ConnHandle) : DecidablePred (Turn.Concludes conn) :=
  fun turn =>
    match h : turn.response with
    | .outcome (some outcome) =>
      decidable_of_iff (turn.finding? conn).isSome (by simp [Turn.Concludes, Turn.Reports, h])
    | .outcome none => .isFalse (by simp [Turn.Concludes, Turn.Reports, h])
    | .result result => .isFalse (by simp [Turn.Concludes, Turn.Reports, h])

/-- A walk was accepted for a connection since it was registered last, and no outcome was reported
for it since. -/
def Walking (conn : ConnHandle) (history : List Turn) : Prop :=
  Since (fun turn => ¬ turn.Adds conn ∧ ¬ turn.Concludes conn) (Turn.Accepts conn) history

/-- The part of a history that belongs to the last walk of a connection: it begins with the turn in
which the walk was accepted. -/
def lastWalk (conn : ConnHandle) (history : List Turn) : List Turn :=
  history.foldl (fun walk turn => if turn.Accepts conn then [turn] else walk ++ [turn]) []

/-- The requests about a connection that the host takes on in a turn. -/
def Turn.accepted (conn : ConnHandle) (turn : Turn) : List Request :=
  (turn.exchanges.filter fun x => x.answer = .accepted ∧ x.request.conn? = some conn).map
    (·.request)

/-- In this turn the answer to a request about a connection ends. -/
def Turn.Answers (conn : ConnHandle) (request : Request) (turn : Turn) : Prop :=
  (turn.finding? conn).bind Finding.answers? = some request.kind

instance (conn : ConnHandle) (request : Request) : DecidablePred (Turn.Answers conn request) :=
  fun turn =>
    inferInstanceAs (Decidable ((turn.finding? conn).bind Finding.answers? = some request.kind))

/-- The requests about a connection that the host took on in a history, and to which the answer did
not end in a later turn. -/
def unanswered (conn : ConnHandle) : List Turn → List Request
  | [] => []
  | turn :: later =>
    (turn.accepted conn).filter (fun request => ∀ next ∈ later, ¬ next.Answers conn request) ++
      unanswered conn later

theorem lastWalk_concat (conn : ConnHandle) (past : List Turn) (turn : Turn) :
    lastWalk conn (past ++ [turn]) =
      if turn.Accepts conn then [turn] else lastWalk conn past ++ [turn] := by
  simp [lastWalk]

/-- What was open before a turn is open after it unless the turn ends the answer, and what the host
takes on in the turn is open. -/
theorem unanswered_concat (conn : ConnHandle) (past : List Turn) (turn : Turn) :
    unanswered conn (past ++ [turn]) =
      (unanswered conn past).filter (fun request => ¬ turn.Answers conn request) ++
        turn.accepted conn := by
  induction past with
  | nil => simp [unanswered]
  | cons first past ih =>
    rw [List.cons_append, unanswered, ih, unanswered, List.filter_append, List.filter_filter,
      List.append_assoc]
    congr 1
    apply List.filter_congr
    intro request hrequest
    simp [and_comm, or_imp, forall_and]

/-- A turn in which the host takes nothing on for a connection accepts no walk of it. -/
theorem Turn.not_accepts_of_unasked (unasked : turn.accepted conn = []) :
    ¬ turn.Accepts conn := by
  intro accepts
  have hmem : Request.discoverServices conn ∈ turn.accepted conn :=
    List.mem_map.2 ⟨_, List.mem_filter.2 ⟨accepts, by simp [Request.conn?]⟩, rfl⟩
  rw [unasked] at hmem
  cases hmem

/-- A turn that brings no finding about a connection reports no outcome for it. -/
theorem Turn.not_concludes_of_unheard (unheard : turn.finding? conn = none) :
    ¬ turn.Concludes conn := by
  rintro ⟨outcome, hfinding, -⟩
  rw [unheard] at hfinding
  cases hfinding

/-- A turn that says of no walk that it ended reports no outcome. -/
theorem Turn.not_concludes_of_none (response : turn.response = .outcome none) :
    ¬ turn.Concludes conn := by
  rintro ⟨outcome, -, hresponse⟩
  rw [response] at hresponse
  cases hresponse

/-- A turn without requests leaves nothing open. -/
theorem Turn.accepted_of_silent (silent : turn.exchanges = []) : turn.accepted conn = [] := by
  rw [Turn.accepted, silent]
  rfl

/-- A turn that takes a finding into the walk of a connection neither registers the connection nor
accepts a walk of it. -/
theorem Turn.of_heard {finding : Finding} {peer' : Peer} {outcome : Option Outcome}
    (heard : turn.finding? conn = some finding)
    (walk : peer.WalkStep finding turn.exchanges peer' outcome) :
    ¬ turn.Adds conn ∧ ¬ turn.Accepts conn := by
  constructor
  · rintro ⟨⟨address, hcall⟩, -⟩
    rw [Turn.finding?, hcall] at heard
    cases heard
  · intro accepts
    rcases walk.request_kind accepts with hkind | hkind
    · cases hkind
    · cases hkind

/-! ## What a turn does to one connection -/

/-- Everything that a turn can do to the peer of a connection. -/
inductive Turn.Effect (conn : ConnHandle) (turn : Turn) : Prop where
  | aside (unadded : ¬ turn.Adds conn) (unconcluded : ¬ turn.Concludes conn)
      (unasked : turn.accepted conn = [])
      (unheard : (turn.before.find? conn).isSome → turn.finding? conn = none)
      (same : (turn.after.find? conn).map (·.progress) =
        (turn.before.find? conn).map (·.progress))
  | added (adds : turn.Adds conn) (unheard : turn.finding? conn = none)
      (unasked : turn.accepted conn = []) (unknown : turn.before.find? conn = none) (new : Peer)
      (known : turn.after.find? conn = some new) (fresh : new.progress = .notStarted)
  | deleted (unadded : ¬ turn.Adds conn) (unheard : turn.finding? conn = none)
      (unasked : turn.accepted conn = []) (gone : turn.after.find? conn = none)
  | started (starts : turn.call = .discoverAll conn) (old new : Peer)
      (before : turn.before.find? conn = some old) (halted : ¬ old.progress.InFlight)
      (asked : turn.exchanges = [⟨.discoverServices conn, .accepted⟩])
      (after : turn.after.find? conn = some new) (begins : new.progress = .services)
  | refused (starts : turn.call = .discoverAll conn) (old new : Peer)
      (before : turn.before.find? conn = some old) (halted : ¬ old.progress.InFlight)
      (unasked : turn.accepted conn = [])
      (after : turn.after.find? conn = some new) (fails : new.progress = .failed)
  | heard (finding : Finding) (hfinding : turn.finding? conn = some finding)
      (outcome : Option Outcome) (response : turn.response = .outcome outcome) (old new : Peer)
      (before : turn.before.find? conn = some old) (after : turn.after.find? conn = some new)
      (walk : old.WalkStep finding turn.exchanges new outcome)

/-- A turn that is refused registers nothing. -/
theorem Turn.not_adds_of_error {why : Fault} (refused : turn.response = .result (.error why)) :
    ¬ turn.Adds conn := by
  rintro ⟨-, hresponse⟩
  rw [refused] at hresponse
  cases hresponse

/-- A turn that files an entry by hand registers nothing and brings no finding. -/
theorem Turn.of_entry {entry : ConnHandle × Finding} (h : turn.call.entry? = some entry) :
    ¬ turn.Adds conn ∧ turn.finding? conn = none := by
  unfold Turn.Adds Turn.finding?
  cases hcall : turn.call with
  | addService _ _ | addCharacteristic _ _ | addDescriptor _ _ _ => simp
  | add _ _ | delete _ | discoverAll _ | event _ =>
    rw [hcall] at h
    cases h

/-- A turn without requests that brings no finding about a connection, registers nothing and leaves
the walk where it is has nothing to do with the walk. -/
theorem Turn.effect_of_silent (unadded : ¬ turn.Adds conn) (unheard : turn.finding? conn = none)
    (silent : turn.exchanges = [])
    (same : (turn.after.find? conn).map (·.progress) =
      (turn.before.find? conn).map (·.progress)) : turn.Effect conn :=
  .aside unadded (not_concludes_of_unheard unheard) (accepted_of_silent silent) (fun _ => unheard)
    same

/-- A turn that is not about a connection has nothing to do with its walk. -/
theorem Turn.effect_of_other (other : turn.call.conn? ≠ some conn) : turn.Effect conn := by
  obtain ⟨unheard, -, same⟩ := turn.frame other
  refine .aside ?_ (not_concludes_of_unheard unheard) ?_ (fun _ => unheard) (by rw [same])
  · rintro ⟨⟨address, hcall⟩, -⟩
    rw [hcall] at other
    exact other rfl
  · unfold Turn.accepted
    rw [List.map_eq_nil_iff, List.filter_eq_nil_iff]
    intro x hx
    rw [turn.step.request_conn hx]
    simp [other]

/-- **A turn does to the peer of a connection what `Effect` says.** -/
theorem Turn.effect (conn : ConnHandle) (turn : Turn) : turn.Effect conn := by
  by_cases own : turn.call.conn? = some conn
  swap
  · exact effect_of_other own
  have step := turn.step
  have byHand : ∀ {entry}, turn.call.entry? = some entry →
      ¬ turn.Adds conn ∧ turn.finding? conn = none := Turn.of_entry
  obtain ⟨registry, call, exchanges, response, registry', yields⟩ := turn
  dsimp only at step own byHand
  cases step with
  | added conn' address registry' h =>
    obtain rfl : conn' = conn := Option.some.inj own
    have hafter := find?_of_add h conn'
    rw [if_pos rfl] at hafter
    exact .added ⟨⟨address, rfl⟩, rfl⟩ rfl rfl (add_eq_ok_iff.1 h).1 _ hafter rfl
  | unadded conn' address why h =>
    exact effect_of_silent (not_adds_of_error rfl) rfl rfl rfl
  | deleted conn' peer known =>
    obtain rfl : conn' = conn := Option.some.inj own
    refine .deleted ?_ rfl rfl (find?_erase_self registry conn')
    rintro ⟨⟨address, hcall⟩, -⟩
    cases hcall
  | undeleted conn' unknown =>
    exact effect_of_silent (not_adds_of_error rfl) rfl rfl rfl
  | filed h peer peer' known fits =>
    obtain rfl := Option.some.inj ((Call.conn?_of_entry? h).symm.trans own)
    obtain ⟨unadded, unheard⟩ := byHand h
    refine effect_of_silent unadded unheard rfl ?_
    rw [find?_put_of_known known (by rw [Peer.file_eq_ok fits]), known, Peer.file_eq_ok fits]
    rfl
  | unfiled h peer known why unfit =>
    obtain ⟨unadded, unheard⟩ := byHand h
    exact effect_of_silent unadded unheard rfl rfl
  | unfilable h unknown =>
    obtain ⟨unadded, unheard⟩ := byHand h
    exact effect_of_silent unadded unheard rfl rfl
  | walkStarted conn' peer known halted =>
    obtain rfl : conn' = conn := Option.some.inj own
    exact .started rfl peer _ known halted rfl (find?_put_of_known known rfl) rfl
  | walkRefused conn' peer known halted why =>
    obtain rfl : conn' = conn := Option.some.inj own
    refine .refused rfl peer _ known halted ?_ (find?_put_of_known known rfl) rfl
    simp [accepted]
  | walkRunning conn' peer known running =>
    obtain rfl : conn' = conn := Option.some.inj own
    refine effect_of_silent (not_adds_of_error rfl) rfl rfl ?_
    rw [find?_put_of_known known rfl, known]
  | walkUnknown conn' unknown =>
    exact effect_of_silent (not_adds_of_error rfl) rfl rfl rfl
  | walked conn' finding peer peer' known walk =>
    obtain rfl : conn' = conn := Option.some.inj own
    exact .heard finding (if_pos rfl) _ rfl peer peer' known
      (find?_put_of_known known walk.conn_eq) walk
  | ignored event h =>
    refine .aside ?_ ?_ rfl ?_ rfl
    · rintro ⟨⟨address, hcall⟩, -⟩
      cases hcall
    · exact not_concludes_of_none rfl
    · -- The finding may be about the connection, but then there is no peer to take it in.
      intro hknown
      cases event with
      | discovery conn' finding =>
        obtain rfl : conn' = conn := Option.some.inj own
        rw [h conn' finding rfl] at hknown
        cases hknown
      | _ => rfl

/-! ## Walks in a run -/

/-- The walk of a connection is under way. -/
def Walks (registry : Registry) (conn : ConnHandle) : Prop :=
  ∃ peer, registry.find? conn = some peer ∧ peer.progress.InFlight

/-- After this turn the walk of a connection is over, complete or failed. -/
def Turn.Over (conn : ConnHandle) (turn : Turn) : Prop :=
  ∃ peer, turn.after.find? conn = some peer ∧
    (peer.progress = .complete ∨ peer.progress = .failed)

/-- In this turn the walk of a connection goes out of flight. -/
def Turn.Lands (conn : ConnHandle) (turn : Turn) : Prop :=
  turn.before.Walks conn ∧ ∃ peer, turn.after.find? conn = some peer ∧ ¬ peer.progress.InFlight

/-- The walk of a connection was over, and no other was asked for since. -/
def Ended (conn : ConnHandle) (history : List Turn) : Prop :=
  Since (fun turn => turn.call ≠ .discoverAll conn) (Turn.Over conn) history

/-- How many outcomes were reported for the last walk of a connection. -/
def outcomes (conn : ConnHandle) (history : List Turn) : Nat :=
  (lastWalk conn history).countP (Turn.Concludes conn ·)

/-- A walk that is under way is not over. -/
theorem Turn.not_over_of_inFlight (known : turn.after.find? conn = some peer)
    (running : peer.progress.InFlight) : ¬ turn.Over conn := by
  rintro ⟨peer', known', landed⟩
  obtain rfl := Option.some.inj (known'.symm.trans known)
  rcases landed with landed | landed
  · exact running.ne_complete landed
  · rw [landed] at running
    exact running

/-- A turn that has nothing to do with a walk changes nothing about it. -/
theorem walking_concat_iff (unaccepted : ¬ turn.Accepts conn) (unadded : ¬ turn.Adds conn)
    (unconcluded : ¬ turn.Concludes conn) :
    Walking conn (past ++ [turn]) ↔ Walking conn past := by
  unfold Walking
  rw [since_concat_iff]
  simp [unaccepted, unadded, unconcluded]

/-- A walk of a connection is over once the connection is registered anew or an outcome is
reported. -/
theorem not_walking_concat (unaccepted : ¬ turn.Accepts conn)
    (ends : turn.Adds conn ∨ turn.Concludes conn) : ¬ Walking conn (past ++ [turn]) := by
  unfold Walking
  rw [since_concat_iff]
  rintro (accepts | ⟨⟨unadded, unconcluded⟩, -⟩)
  · exact unaccepted accepts
  · exact ends.elim unadded unconcluded

/-- A turn that accepts no walk belongs to the walk before it. -/
theorem lastWalk_concat_of_unaccepted (h : ¬ turn.Accepts conn) :
    lastWalk conn (past ++ [turn]) = lastWalk conn past ++ [turn] := by
  rw [lastWalk_concat, if_neg h]

/-- Without an outcome in a turn there are as many as before. -/
theorem outcomes_concat_of_unconcluded (unaccepted : ¬ turn.Accepts conn)
    (unconcluded : ¬ turn.Concludes conn) :
    outcomes conn (past ++ [turn]) = outcomes conn past := by
  simp [outcomes, lastWalk_concat, unaccepted, unconcluded]

/-- With an outcome in a turn there is one more. -/
theorem outcomes_concat_of_concludes (unaccepted : ¬ turn.Accepts conn)
    (concludes : turn.Concludes conn) :
    outcomes conn (past ++ [turn]) = outcomes conn past + 1 := by
  simp [outcomes, lastWalk_concat, unaccepted, concludes]

/-- No walk of a connection is under way.  If the connection is registered, every walk that was
accepted for it has its outcome. -/
structure Halted (conn : ConnHandle) (past : List Turn) (registry : Registry) : Prop where
  halted : ¬ registry.Walks conn
  settled : (registry.find? conn).isSome → ¬ Walking conn past
  once : outcomes conn past ≤ 1

/-- The walk of a connection is under way.  It was accepted and has no outcome yet, and one request
of it is open, which is the one that it waits for. -/
structure UnderWay (conn : ConnHandle) (past : List Turn) (registry : Registry) (peer : Peer)
    (request : Request) : Prop where
  known : registry.find? conn = some peer
  running : peer.progress.InFlight
  walking : Walking conn past
  pending : unanswered conn (lastWalk conn past) = [request]
  awaits : peer.progress.awaits? = some request.kind
  unconcluded : outcomes conn past = 0
  going : ¬ Ended conn past

/-- The place of a walk is in step with the history. -/
def Followed (conn : ConnHandle) (past : List Turn) (registry : Registry) : Prop :=
  Halted conn past registry ∨ ∃ peer request, UnderWay conn past registry peer request

/-! ### Turns while no walk is under way -/

/-- A turn that accepts no walk and reports no outcome leaves it at that, whether the connection
stays, goes, or is registered anew. -/
theorem Halted.concat (followed : Halted conn past turn.before)
    (halted : ¬ turn.after.Walks conn) (unasked : turn.accepted conn = [])
    (unconcluded : ¬ turn.Concludes conn)
    (known : (turn.after.find? conn).isSome → ¬ turn.Adds conn →
      (turn.before.find? conn).isSome) : Halted conn (past ++ [turn]) turn.after where
  halted := halted
  settled := by
    have unaccepted := Turn.not_accepts_of_unasked unasked
    intro hknown
    by_cases adds : turn.Adds conn
    · exact not_walking_concat unaccepted (.inl adds)
    · rw [walking_concat_iff unaccepted adds unconcluded]
      exact followed.settled (known hknown adds)
  once := by
    rw [outcomes_concat_of_unconcluded (Turn.not_accepts_of_unasked unasked) unconcluded]
    exact followed.once

/-- A connection whose peer is not under way has no walk. -/
theorem not_walks_of_known (known : registry.find? conn = some peer)
    (halted : ¬ peer.progress.InFlight) : ¬ registry.Walks conn := by
  rintro ⟨peer', known', running⟩
  obtain rfl := Option.some.inj (known'.symm.trans known)
  exact halted running

/-- A connection that is not registered has no walk. -/
theorem not_walks_of_unknown (unknown : registry.find? conn = none) : ¬ registry.Walks conn := by
  rintro ⟨peer, known, -⟩
  rw [unknown] at known
  cases known

/-- A walk that is accepted is under way, with the request for the services open. -/
theorem UnderWay.of_started {new : Peer} (starts : turn.call = .discoverAll conn)
    (asked : turn.exchanges = [⟨.discoverServices conn, .accepted⟩])
    (after : turn.after.find? conn = some new) (begins : new.progress = .services) :
    UnderWay conn (past ++ [turn]) turn.after new (.discoverServices conn) := by
  have accepts : turn.Accepts conn := by
    unfold Turn.Accepts
    rw [asked]
    exact List.mem_singleton_self _
  have unconcluded : ¬ turn.Concludes conn :=
    Turn.not_concludes_of_unheard (by rw [Turn.finding?, starts])
  have running : new.progress.InFlight := by
    rw [begins]
    trivial
  refine ⟨after, running, since_concat_iff.2 (.inl accepts), ?_, ?_, ?_, ?_⟩
  · rw [lastWalk_concat, if_pos accepts]
    simp [unanswered, Turn.accepted, asked, Request.conn?]
  · rw [begins]
    rfl
  · simp [outcomes, lastWalk_concat, accepts, unconcluded]
  · intro ended
    rcases since_concat_iff.1 ended with landed | ⟨other, -⟩
    · exact Turn.not_over_of_inFlight after running landed
    · exact other starts

/-- While no walk is under way a turn leaves it at that or begins one. -/
theorem Halted.followed (followed : Halted conn past turn.before) :
    Followed conn (past ++ [turn]) turn.after := by
  cases turn.effect conn with
  | aside unadded unconcluded unasked unheard same =>
    refine .inl (followed.concat ?_ unasked unconcluded ?_)
    · rintro ⟨peer, known, running⟩
      rw [known] at same
      obtain ⟨old, hold, hprogress⟩ := Option.map_eq_some_iff.1 same.symm
      exact followed.halted ⟨old, hold, hprogress ▸ running⟩
    · intro known _
      rw [← Option.isSome_map, ← same, Option.isSome_map]
      exact known
  | added adds unheard unasked unknown new known fresh =>
    have halted : ¬ new.progress.InFlight := fun running => running.ne_notStarted fresh
    exact .inl (followed.concat (not_walks_of_known known halted) unasked
      (Turn.not_concludes_of_unheard unheard) fun _ unadded => absurd adds unadded)
  | deleted unadded unheard unasked gone =>
    refine .inl (followed.concat (not_walks_of_unknown gone) unasked
      (Turn.not_concludes_of_unheard unheard) fun known _ => ?_)
    rw [gone] at known
    cases known
  | started starts old new before halted asked after begins =>
    exact .inr ⟨new, _, .of_started starts asked after begins⟩
  | refused starts old new before halted unasked after fails =>
    have unheard : turn.finding? conn = none := by rw [Turn.finding?, starts]
    have ended : ¬ new.progress.InFlight := by
      rw [fails]
      exact id
    exact .inl (followed.concat (not_walks_of_known after ended) unasked
      (Turn.not_concludes_of_unheard unheard) fun _ _ => by rw [before]; rfl)
  | heard finding hfinding outcome response old new before after walk =>
    have halted : ¬ old.progress.InFlight := fun running => followed.halted ⟨old, before, running⟩
    obtain ⟨silent, rfl, rfl⟩ := walk.of_not_inFlight halted
    refine .inl (followed.concat (not_walks_of_known after halted)
      (Turn.accepted_of_silent silent) ?_ fun _ _ => by rw [before]; rfl)
    exact Turn.not_concludes_of_none response

/-! ### Turns while a walk is under way -/

section UnderWay

variable {request next : Request} {new : Peer}

/-- A walk goes on in a turn that leaves one request open, and it waits for that one. -/
theorem UnderWay.concat (followed : UnderWay conn past turn.before peer request)
    (unaccepted : ¬ turn.Accepts conn) (unadded : ¬ turn.Adds conn)
    (unconcluded : ¬ turn.Concludes conn) (known : turn.after.find? conn = some new)
    (running : new.progress.InFlight)
    (pending : [request].filter (fun request => ¬ turn.Answers conn request) ++
      turn.accepted conn = [next])
    (awaits : new.progress.awaits? = some next.kind) :
    UnderWay conn (past ++ [turn]) turn.after new next where
  known := known
  running := running
  walking := (walking_concat_iff unaccepted unadded unconcluded).2 followed.walking
  pending := by
    rw [lastWalk_concat_of_unaccepted unaccepted, unanswered_concat, followed.pending, pending]
  awaits := awaits
  unconcluded := by
    rw [outcomes_concat_of_unconcluded unaccepted unconcluded, followed.unconcluded]
  going := by
    intro ended
    rcases since_concat_iff.1 ended with landed | ⟨-, before⟩
    · exact Turn.not_over_of_inFlight known running landed
    · exact followed.going before

/-- A walk that reports its outcome is halted. -/
theorem UnderWay.halted (followed : UnderWay conn past turn.before peer request)
    (unaccepted : ¬ turn.Accepts conn) (concludes : turn.Concludes conn)
    (known : turn.after.find? conn = some new) (landed : ¬ new.progress.InFlight) :
    Halted conn (past ++ [turn]) turn.after where
  halted := not_walks_of_known known landed
  settled _ := not_walking_concat unaccepted (.inr concludes)
  once := Nat.le_of_eq (by
    rw [outcomes_concat_of_concludes unaccepted concludes, followed.unconcluded])

/-- A finding that is taken into a walk under way leaves it with one request open, or ends it with
its outcome. -/
theorem UnderWay.heard (followed : UnderWay conn past turn.before peer request) {finding : Finding}
    {outcome : Option Outcome} (heard : turn.finding? conn = some finding)
    (response : turn.response = .outcome outcome) (known : turn.after.find? conn = some new)
    (walk : peer.WalkStep finding turn.exchanges new outcome) :
    Followed conn (past ++ [turn]) turn.after := by
  obtain ⟨unadded, unaccepted⟩ := Turn.of_heard heard walk
  cases outcome with
  | some ending =>
    have concludes : turn.Concludes conn := ⟨ending, by rw [heard]; rfl, response⟩
    have landed : ¬ new.progress.InFlight := (walk.reports followed.running).not_inFlight
    exact .inl (followed.halted unaccepted concludes known landed)
  | none =>
    have unconcluded : ¬ turn.Concludes conn := Turn.not_concludes_of_none response
    have running : new.progress.InFlight := walk.reports followed.running
    have hanswers : turn.Answers conn request ↔ finding.answers? = peer.progress.awaits? := by
      simp [Turn.Answers, heard, followed.awaits]
    rcases walk.asks followed.running with ⟨unanswers, silent, hprogress⟩ |
      ⟨answers, next, asked, hconn, hawaits⟩
    · refine .inr ⟨new, request, followed.concat unaccepted unadded unconcluded known running ?_
        (by rw [hprogress, followed.awaits])⟩
      rw [Turn.accepted_of_silent silent]
      simp [hanswers, unanswers]
    · refine .inr ⟨new, next, followed.concat unaccepted unadded unconcluded known running ?_
        hawaits⟩
      rw [conn_of_find?_eq_some followed.known] at hconn
      simp [hanswers, answers, Turn.accepted, asked, hconn]

/-- A walk that is under way goes on with one request open, or ends with its outcome, or is dropped
with its connection. -/
theorem UnderWay.followed (followed : UnderWay conn past turn.before peer request) :
    Followed conn (past ++ [turn]) turn.after := by
  have hpeer := followed.known
  cases turn.effect conn with
  | aside unadded unconcluded unasked unheard same =>
    have quiet : turn.finding? conn = none := unheard (by rw [hpeer]; rfl)
    rw [hpeer] at same
    obtain ⟨new, known, hprogress⟩ := Option.map_eq_some_iff.1 same
    have running : new.progress.InFlight := by
      rw [hprogress]
      exact followed.running
    refine .inr ⟨new, request, followed.concat (Turn.not_accepts_of_unasked unasked) unadded
      unconcluded known running ?_ (by rw [hprogress, followed.awaits])⟩
    rw [unasked]
    simp [Turn.Answers, quiet]
  | added adds unheard unasked unknown new known fresh =>
    rw [hpeer] at unknown
    cases unknown
  | deleted unadded unheard unasked gone =>
    refine .inl ⟨not_walks_of_unknown gone, fun known => ?_, ?_⟩
    · rw [gone] at known
      cases known
    · rw [outcomes_concat_of_unconcluded (Turn.not_accepts_of_unasked unasked)
        (Turn.not_concludes_of_unheard unheard), followed.unconcluded]
      exact Nat.zero_le 1
  | started starts old new before halted asked after begins =>
    obtain rfl := Option.some.inj (hpeer.symm.trans before)
    exact absurd followed.running halted
  | refused starts old new before halted unasked after fails =>
    obtain rfl := Option.some.inj (hpeer.symm.trans before)
    exact absurd followed.running halted
  | heard finding heard outcome response old new before after walk =>
    obtain rfl := Option.some.inj (hpeer.symm.trans before)
    exact followed.heard heard response after walk

end UnderWay

/-- **The walks of a run are in step with its history**, at its end and before each of its turns. -/
theorem Run.followed {history : List Turn} (run : Run {} history registry) (conn : ConnHandle) :
    Followed conn history registry ∧
      Throughout (fun past turn => Followed conn past turn.before) history := by
  induction run with
  | nil =>
    refine ⟨.inl ⟨not_walks_of_unknown rfl, fun known => ?_, Nat.zero_le 1⟩, throughout_nil _⟩
    cases known
  | concat run turn next ih =>
    obtain ⟨followed, throughout⟩ := ih
    rw [← next] at followed
    refine ⟨?_, throughout_concat_iff.2 ⟨throughout, followed⟩⟩
    rcases followed with halted | ⟨peer, request, underWay⟩
    · exact halted.followed
    · exact underWay.followed

/-! ## What a turn answers -/

/-- A turn that is asked to start a walk brings no finding. -/
theorem Turn.finding?_of_discoverAll (starts : turn.call = .discoverAll conn) :
    turn.finding? conn = none := by
  rw [Turn.finding?, starts]

/-- An outcome is reported in the turn in which the walk goes out of flight, and in no other, and
the place of the walk agrees with it. -/
theorem Turn.lands_of_reports {outcome : Outcome} (reports : turn.Reports conn outcome) :
    turn.before.Walks conn ∧
      ∃ peer, turn.after.find? conn = some peer ∧ peer.progress.Reports (some outcome) := by
  obtain ⟨heard, response⟩ := reports
  have contradicts : turn.finding? conn = none → False := by
    intro unheard
    rw [unheard] at heard
    cases heard
  cases turn.effect conn with
  | aside unadded unconcluded unasked unheard same =>
    exact absurd ⟨outcome, heard, response⟩ unconcluded
  | added adds unheard unasked unknown new known fresh => exact (contradicts unheard).elim
  | deleted unadded unheard unasked gone => exact (contradicts unheard).elim
  | started starts old new before halted asked after begins =>
    exact (contradicts (finding?_of_discoverAll starts)).elim
  | refused starts old new before halted unasked after fails =>
    exact (contradicts (finding?_of_discoverAll starts)).elim
  | heard finding hfinding outcome' response' old new before after walk =>
    obtain rfl : outcome' = some outcome := Response.outcome.inj (response'.symm.trans response)
    have running : old.progress.InFlight := walk.inFlight_of_outcome
    exact ⟨⟨old, before, running⟩, new, after, walk.reports running⟩

/-- In the turn in which a walk goes out of flight its outcome is reported. -/
theorem Turn.concludes_of_lands (lands : turn.Lands conn) : turn.Concludes conn := by
  obtain ⟨⟨peer, known, running⟩, new, hnew, landed⟩ := lands
  cases turn.effect conn with
  | aside unadded unconcluded unasked unheard same =>
    rw [known, hnew] at same
    have hprogress : new.progress = peer.progress := Option.some.inj same
    rw [hprogress] at landed
    exact absurd running landed
  | added adds unheard unasked unknown new known' fresh =>
    rw [known] at unknown
    cases unknown
  | deleted unadded unheard unasked gone =>
    rw [hnew] at gone
    cases gone
  | started starts old new before halted asked after begins =>
    obtain rfl := Option.some.inj (known.symm.trans before)
    exact absurd running halted
  | refused starts old new before halted unasked after fails =>
    obtain rfl := Option.some.inj (known.symm.trans before)
    exact absurd running halted
  | heard finding heard outcome response old new' before after walk =>
    obtain rfl := Option.some.inj (known.symm.trans before)
    obtain rfl := Option.some.inj (hnew.symm.trans after)
    cases outcome with
    | none => exact absurd (walk.reports running) landed
    | some ending => exact ⟨ending, by rw [heard]; rfl, response⟩

/-- While the walk of a connection is under way no other is started. -/
theorem Turn.refuses_of_walks (distinct : turn.before.Distinct)
    (starts : turn.call = .discoverAll conn) (walks : turn.before.Walks conn) :
    turn.response = .result (.error .discoveryInProgress) ∧ turn.exchanges = [] ∧
      turn.after = turn.before := by
  obtain ⟨peer, known, running⟩ := walks
  have step := turn.step
  rw [starts] at step
  generalize turn.exchanges = exchanges at step ⊢
  generalize turn.response = response at step ⊢
  generalize turn.after = after at step ⊢
  cases step with
  | walkRunning _ peer' known' _ => exact ⟨rfl, rfl, distinct.put_eq_self known'⟩
  | walkStarted _ peer' known' halted | walkRefused _ peer' known' halted _ =>
    obtain rfl := Option.some.inj (known.symm.trans known')
    exact absurd running halted
  | walkUnknown _ unknown =>
    rw [known] at unknown
    cases unknown
  | filed h | unfiled h | unfilable h => cases h

/-- While no walk of a connection is under way nothing that is found about it matters. -/
theorem Turn.ignores_of_halted (distinct : turn.before.Distinct) {finding : Finding}
    (hears : turn.call = .event (.discovery conn finding)) (halted : ¬ turn.before.Walks conn) :
    turn.response = .outcome none ∧ turn.exchanges = [] ∧ turn.after = turn.before := by
  have step := turn.step
  rw [hears] at step
  generalize turn.exchanges = exchanges at step ⊢
  generalize turn.response = response at step ⊢
  generalize turn.after = after at step ⊢
  cases step with
  | walked _ _ peer peer' known walk =>
    have still : ¬ peer.progress.InFlight := fun running => halted ⟨peer, known, running⟩
    obtain ⟨rfl, rfl, rfl⟩ := walk.of_not_inFlight still
    exact ⟨rfl, rfl, distinct.put_eq_self known⟩
  | ignored _ _ => exact ⟨rfl, rfl, rfl⟩
  | filed h | unfiled h | unfilable h => cases h

/-! ## The theorem -/

/-- **One outcome for each walk, and one request at a time.**  In a run of a registry that began
empty, and for each connection:

* while it is registered, its walk is in flight exactly when a walk was accepted for it since it was
  registered and no outcome was reported since; and while it is in flight exactly one request that
  the host took on for this walk has not been answered to the end, one of the kind that belongs to
  the phase of the walk;
* at most one outcome is reported for a walk;
* an outcome is reported exactly in the turn in which the walk goes out of flight, it is the outcome
  of an accepted walk that had none yet, and the place of the walk agrees with it;
* while the walk is in flight, to ask for another one is refused, no request is made, and nothing
  changes;
* and once the walk is complete or failed, and until a walk is asked for again, nothing that is
  found about the connection has an outcome, leads to a request or changes anything. -/
theorem Run.one_outcome {history : List Turn} (run : Run {} history registry)
    (conn : ConnHandle) :
    (∀ peer, registry.find? conn = some peer →
      (peer.progress.InFlight ↔ Walking conn history) ∧
      (peer.progress.InFlight → ∃ request, unanswered conn (lastWalk conn history) = [request] ∧
        peer.progress.awaits? = some request.kind)) ∧
    outcomes conn history ≤ 1 ∧
    Throughout (fun past turn =>
      (turn.Concludes conn ↔ turn.Lands conn) ∧
      (turn.Concludes conn → Walking conn past) ∧
      (∀ outcome, turn.Reports conn outcome →
        ∃ peer, turn.after.find? conn = some peer ∧ peer.progress.Reports (some outcome)) ∧
      (turn.call = .discoverAll conn → turn.before.Walks conn →
        turn.response = .result (.error .discoveryInProgress) ∧ turn.exchanges = [] ∧
          turn.after = turn.before) ∧
      (∀ finding, turn.call = .event (.discovery conn finding) → Ended conn past →
        turn.response = .outcome none ∧ turn.exchanges = [] ∧ turn.after = turn.before))
      history := by
  obtain ⟨followed, throughout⟩ := run.followed conn
  obtain ⟨-, distinct⟩ := run.distinct
  refine ⟨?_, ?_, ?_⟩
  · intro peer known
    rcases followed with halted | ⟨peer', request, underWay⟩
    · have still : ¬ peer.progress.InFlight := fun running =>
        halted.halted ⟨peer, known, running⟩
      have settled : ¬ Walking conn history := halted.settled (by rw [known]; rfl)
      exact ⟨iff_of_false still settled, fun running => absurd running still⟩
    · obtain rfl := Option.some.inj (underWay.known.symm.trans known)
      exact ⟨iff_of_true underWay.running underWay.walking,
        fun _ => ⟨request, underWay.pending, underWay.awaits⟩⟩
  · rcases followed with halted | ⟨peer', request, underWay⟩
    · exact halted.once
    · rw [underWay.unconcluded]
      exact Nat.zero_le 1
  · intro past turn later heq
    have hturn : turn.before.Distinct := distinct turn (by rw [heq]; simp)
    have hfollowed : Followed conn past turn.before := throughout past turn later heq
    refine ⟨⟨?_, Turn.concludes_of_lands⟩, ?_, ?_, Turn.refuses_of_walks hturn, ?_⟩
    · rintro ⟨outcome, reports⟩
      obtain ⟨walks, peer, known, hplace⟩ := Turn.lands_of_reports reports
      exact ⟨walks, peer, known, hplace.not_inFlight⟩
    · rintro ⟨outcome, reports⟩
      obtain ⟨walks, -⟩ := Turn.lands_of_reports reports
      rcases hfollowed with halted | ⟨peer, request, underWay⟩
      · exact absurd walks halted.halted
      · exact underWay.walking
    · intro outcome reports
      exact (Turn.lands_of_reports reports).2
    · intro finding hears ended
      rcases hfollowed with halted | ⟨peer, request, underWay⟩
      · exact Turn.ignores_of_halted hturn hears halted.halted
      · exact absurd ended underWay.going

/-- A connection is registered and walked.  The peer has no services, so the walk is complete with
the first answer; the answer comes once more, and the connection is walked again. -/
def rewalk : List (Call × Script) :=
  [.add 5 (.ofBytes .publicDevice 1 2 3 4 5 6), .discoverAll 5,
    .event (.discovery 5 (.servicesDone .success)), .event (.discovery 5 (.servicesDone .success)),
    .discoverAll 5, .event (.discovery 5 (.service ⟨Uuid.cameraService, 10, 20⟩))].map (·, {})

/-- The first walk has its one outcome.  The second has none yet: its request for the services is
open, and a third walk is refused. -/
theorem one_outcome_rewalk :
    let past := playback {} rewalk
    let last := Turn.against Script.reply {} (after {} rewalk) (.discoverAll 5)
    let history := past ++ [last]
    history.countP (Turn.Concludes 5 ·) = 1 ∧ Walking 5 history ∧
      (∃ request, unanswered 5 (lastWalk 5 history) = [request] ∧
        request.kind = .discoverServices) ∧
      last.response = .result (.error .discoveryInProgress) ∧ last.exchanges = [] ∧
        last.after = last.before := by
  intro past last history
  have run : Run {} history last.after := (run_playback {} rewalk).concat last rfl
  obtain ⟨hplace, -, hturns⟩ := run.one_outcome 5
  have known : ∃ peer, last.after.find? 5 = some peer ∧ peer.progress = .services :=
    ⟨_, rfl, rfl⟩
  obtain ⟨peer, hpeer, hprogress⟩ := known
  have running : peer.progress.InFlight := by
    rw [hprogress]
    trivial
  obtain ⟨hwalking, hrequest⟩ := hplace peer hpeer
  obtain ⟨request, hpending, hawaits⟩ := hrequest running
  obtain ⟨-, -, -, hrefuses, -⟩ := hturns past last [] rfl
  rw [hprogress] at hawaits
  exact ⟨by decide, hwalking.1 running, ⟨request, hpending, (Option.some.inj hawaits).symm⟩,
    hrefuses rfl ⟨_, rfl, trivial⟩⟩

end Registry

end CameraCentral
