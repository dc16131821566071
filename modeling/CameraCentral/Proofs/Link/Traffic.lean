import CameraCentral.Proofs.Link.Change

/-!
# Nothing is sent to a connection that is down or not encrypted

The link does not remember what was reported about a connection.  It remembers which connections are
registered, how far their walks have come, and where the camera takes commands; and it makes a
request about a connection only if one of these says so, or in the very turn that brings the
connection up.

`Accounted` says which past each of them stands for: a registered connection is up, and a walk that
has started, like a handle for commands that is known, goes back to a report of encryption that is
younger than the entry in the registry.  Every turn preserves this (`Accounted.concat`), in whatever
order the reports come in, and `Run.request_accounted` reads it off for requests.
-/

namespace CameraCentral

namespace Link

variable {history : List Turn} {turn : Turn} {conn : ConnHandle} {scanner : Scanner} {link : Link}

/-! ## One report at a time -/

/-- A turn reports one thing: a connection that is reported to be encrypted is not reported to be
down. -/
theorem Turn.Encrypts.not_disconnects (h : turn.Encrypts conn) : ¬ turn.Disconnects conn := by
  unfold Turn.Encrypts at h
  unfold Turn.Disconnects
  cases hevent : turn.call.event? with
  | none =>
    rw [hevent] at h
    cases h
  | some event =>
    rw [hevent] at h
    cases event with
    | encryptionChange other status => simp [Event.disconnected?]
    | _ => cases h

/-- A finding about a connection does not report it to be down. -/
theorem Turn.not_disconnects_of_discovery {other : ConnHandle} {finding : Finding}
    (h : turn.call.event? = some (.discovery other finding)) : ¬ turn.Disconnects conn := by
  unfold Turn.Disconnects
  rw [h]
  simp [Event.disconnected?]

/-- A registered connection is not added. -/
theorem Turn.not_adds_of_known {peer : Peer} (known : turn.before.peers.find? conn = some peer) :
    ¬ turn.Adds conn := by
  rintro ⟨-, unknown, -⟩
  rw [known] at unknown
  cases unknown

/-! ## What the past accounts for -/

/-- A connection was reported to be up, and has not been reported to be down since. -/
def Up (conn : ConnHandle) (history : List Turn) : Prop :=
  Since (fun turn => ¬ turn.Disconnects conn) (Turn.Establishes conn) history

/-- A connection was reported to be encrypted, and has not been added to the registry since. -/
def Encrypted (conn : ConnHandle) (history : List Turn) : Prop :=
  Since (fun turn => ¬ turn.Adds conn) (Turn.Encrypts conn) history

/-- What the link remembers goes back to what was reported. -/
structure Accounted (history : List Turn) (link : Link) : Prop where
  homed : link.Homed
  up : ∀ conn, (link.peers.find? conn).isSome → Up conn history
  added : ∀ conn, (link.peers.find? conn).isSome → ∃ turn ∈ history, turn.Adds conn
  walked : ∀ conn peer, link.peers.find? conn = some peer → peer.progress ≠ .notStarted →
    Encrypted conn history
  resolved : ∀ conn, link.camera.conn = some conn → link.camera.commandHandle.isSome →
    Encrypted conn history

/-- A new link remembers nothing. -/
theorem accounted_new (scanner : Scanner) : Accounted [] (new scanner) where
  homed := homed_new scanner
  up _ h := by cases h
  added _ h := by cases h
  walked _ _ known _ := by cases known
  resolved _ h _ := by cases h

/-- A connection that is registered after a turn is up. -/
theorem Accounted.up_after (h : Accounted history turn.before)
    (known : (turn.after.peers.find? conn).isSome) : Up conn (history ++ [turn]) := by
  refine since_concat_iff.2 ?_
  have change := turn.step.peerChange conn
  generalize turn.after.peers.find? conn = entry at change known
  cases change with
  | same up =>
    rw [Call.event?_direct] at up
    exact .inr ⟨up, h.up conn known⟩
  | dropped => cases known
  | added address up unknown room =>
    rw [Call.event?_direct] at up
    exact .inl up
  | restarted encrypted peer hpeer halted progress _ =>
    rw [Call.event?_direct] at encrypted
    have still : ¬ turn.Disconnects conn := Turn.Encrypts.not_disconnects encrypted
    exact .inr ⟨still, h.up conn (by rw [hpeer]; rfl)⟩
  | walked finding event peer peer' hpeer exchanges outcome walk =>
    rw [Call.event?_direct] at event
    have still : ¬ turn.Disconnects conn := Turn.not_disconnects_of_discovery event
    exact .inr ⟨still, h.up conn (by rw [hpeer]; rfl)⟩

/-- A connection that is registered after a turn was added in it or before. -/
theorem Accounted.added_after (h : Accounted history turn.before)
    (known : (turn.after.peers.find? conn).isSome) : ∃ t ∈ history ++ [turn], t.Adds conn := by
  have before : (turn.before.peers.find? conn).isSome → ∃ t ∈ history ++ [turn], t.Adds conn := by
    intro hbefore
    obtain ⟨t, ht, hadds⟩ := h.added conn hbefore
    exact ⟨t, List.mem_append_left _ ht, hadds⟩
  have change := turn.step.peerChange conn
  generalize turn.after.peers.find? conn = entry at change known
  cases change with
  | same up => exact before known
  | dropped => cases known
  | added address up unknown room =>
    rw [Call.event?_direct] at up
    exact ⟨turn, by simp, up, unknown, room⟩
  | restarted encrypted peer hpeer halted progress _ => exact before (by rw [hpeer]; rfl)
  | walked finding event peer peer' hpeer exchanges outcome walk =>
    exact before (by rw [hpeer]; rfl)

/-- A walk that has started after a turn goes back to a report of encryption. -/
theorem Accounted.walked_after (h : Accounted history turn.before) {peer : Peer}
    (known : turn.after.peers.find? conn = some peer) (started : peer.progress ≠ .notStarted) :
    Encrypted conn (history ++ [turn]) := by
  refine since_concat_iff.2 ?_
  have change := turn.step.peerChange conn
  rw [known] at change
  generalize hentry : some peer = entry at change
  cases change with
  | same _ =>
    exact .inr ⟨Turn.not_adds_of_known hentry.symm, h.walked conn peer hentry.symm started⟩
  | dropped => cases hentry
  | added address up unknown room =>
    cases hentry
    exact absurd rfl started
  | restarted encrypted old hold halted progress _ =>
    rw [Call.event?_direct] at encrypted
    exact .inl encrypted
  | walked finding event old peer' hold exchanges outcome walk =>
    obtain rfl := Option.some.inj hentry
    -- A walk that has not started takes no finding in, so this one had started before.
    have hbefore : old.progress ≠ .notStarted := by
      intro hnot
      obtain ⟨-, rfl, -⟩ := walk.of_not_inFlight (by rw [hnot]; exact id)
      exact started hnot
    exact .inr ⟨Turn.not_adds_of_known hold, h.walked conn old hold hbefore⟩

/-- A handle for commands that is known after a turn goes back to a report of encryption. -/
theorem Accounted.resolved_after (h : Accounted history turn.before)
    (mine : turn.after.camera.conn = some conn)
    (hhandle : turn.after.camera.commandHandle.isSome) : Encrypted conn (history ++ [turn]) := by
  refine since_concat_iff.2 ?_
  have change := turn.step.cameraChange
  generalize turn.after.camera = camera at change mine hhandle
  cases change with
  | same _ =>
    obtain ⟨peer, hpeer⟩ := Option.isSome_iff_exists.1 (h.homed conn mine)
    exact .inr ⟨Turn.not_adds_of_known hpeer, h.resolved conn mine hhandle⟩
  | lost => cases mine
  | gained other address up unknown => cases hhandle
  | resolved other finding hmine peer known running complete =>
    obtain rfl : other = conn := Option.some.inj (hmine.symm.trans mine)
    exact .inr ⟨Turn.not_adds_of_known known, h.walked other peer known running.ne_notStarted⟩

/-- **A turn leaves everything that the link remembers accounted for.** -/
theorem Accounted.concat (h : Accounted history turn.before) :
    Accounted (history ++ [turn]) turn.after where
  homed := turn.step.homed h.homed
  up _ known := h.up_after known
  added _ known := h.added_after known
  walked _ _ known started := h.walked_after known started
  resolved _ mine hhandle := h.resolved_after mine hhandle

/-- In every run everything that the link remembers is accounted for. -/
theorem Run.accounted (run : Run (new scanner) history link) : Accounted history link :=
  run.invariant Accounted (accounted_new scanner) fun _ _ h => h.concat

/-! ## Requests -/

/-- Whatever lies behind a request to the database of a connection, the connection is registered and
encrypted. -/
theorem Accounted.gatt (h : Accounted history turn.before)
    (known : (turn.before.peers.find? conn).isSome)
    (behind : turn.call.event?.bind Event.encrypted? = some conn ∨
      (∃ peer, turn.before.peers.find? conn = some peer ∧ peer.progress.InFlight) ∨
      turn.before.camera.conn = some conn ∧ turn.before.camera.commandHandle.isSome) :
    (∃ t ∈ history, t.Adds conn) ∧ Encrypted conn (history ++ [turn]) := by
  refine ⟨h.added conn known, since_concat_iff.2 ?_⟩
  obtain ⟨peer, hpeer⟩ := Option.isSome_iff_exists.1 known
  have hadds : ¬ turn.Adds conn := Turn.not_adds_of_known hpeer
  rcases behind with encrypts | ⟨peer, hpeer, running⟩ | ⟨mine, hhandle⟩
  · exact .inl encrypts
  · exact .inr ⟨hadds, h.walked conn peer hpeer running.ne_notStarted⟩
  · exact .inr ⟨hadds, h.resolved conn mine hhandle⟩

/-- **Nothing is sent to a connection that is down or not encrypted.**  In every run of a new link,
a request that names a connection is only made while the connection is up: it was reported to be
up, in this turn or before, and has not been reported to be down since.  A request to its database
is only made while it is encrypted: the connection was added to the registry, and it was reported
to be encrypted, in this turn or before, and has not been added again since. -/
theorem Run.request_accounted (run : Run (new scanner) (history ++ [turn]) link) {x : Exchange}
    (hx : x ∈ turn.exchanges) (hconn : x.request.conn? = some conn) :
    Up conn (history ++ [turn]) ∧
      (x.request.IsGatt →
        (∃ t ∈ history, t.Adds conn) ∧ Encrypted conn (history ++ [turn])) := by
  obtain ⟨run, -⟩ := run_concat_iff.1 run
  have h : Accounted history turn.before := run.accounted
  rcases turn.step.request_cases h.homed hx hconn with ⟨up, hgatt⟩ | ⟨known, behind⟩
  · rw [Call.event?_direct] at up
    exact ⟨since_concat_iff.2 (.inl up), fun gatt => absurd gatt hgatt⟩
  · rw [Call.event?_direct] at behind
    have still : ¬ turn.Disconnects conn := by
      intro down
      unfold Turn.Disconnects at down
      rw [← Call.event?_direct] at down
      rw [turn.step.exchanges_eq_nil down] at hx
      cases hx
    exact ⟨since_concat_iff.2 (.inr ⟨still, h.up conn known⟩),
      fun gatt => h.gatt known (behind gatt)⟩

/-! ### A short visit -/

/-- A camera comes up on connection 5, whose database holds the characteristic for commands and
nothing else.  It is encrypted and walked, and the host accepts everything. -/
def visit : List (Call × Script) :=
  [.event (.linkEstablished 5 sampleAddress .success),
    .event (.encryptionChange 5 .success),
    .event (.discovery 5 (.service ⟨Uuid.cameraService, 1, 3⟩)),
    .event (.discovery 5 (.servicesDone .success)),
    .event (.discovery 5 (.characteristic ⟨Uuid.command, 2, 3, ⟨Properties.write⟩⟩)),
    .event (.discovery 5 (.characteristicsDone .success))].map fun call => (call, {})

/-- A command that is written at the end of the visit goes to a connection that is up and
encrypted. -/
theorem request_accounted_visit :
    let history := playback (new {}) visit
    let turn := Turn.against Script.reply {} (after (new {}) visit) (.write Camera.shutterOn)
    Run (new {}) (history ++ [turn]) turn.after ∧
      ⟨.writeNoResponse 5 3 Camera.shutterOn, .accepted⟩ ∈ turn.exchanges ∧
        Up 5 (history ++ [turn]) ∧ (∃ t ∈ history, t.Adds 5) ∧ Encrypted 5 (history ++ [turn]) := by
  intro history turn
  have run : Run (new {}) (history ++ [turn]) turn.after :=
    run_concat_iff.2 ⟨run_playback (new {}) visit, rfl⟩
  have hx : ⟨.writeNoResponse 5 3 Camera.shutterOn, .accepted⟩ ∈ turn.exchanges := by decide
  have h := Run.request_accounted run hx rfl
  exact ⟨run, hx, h.1, h.2 (by decide)⟩

end Link

end CameraCentral
