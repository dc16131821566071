import CameraCentral.Proofs.Link.Traffic

/-!
# Where commands are written

The camera keeps the handle to which commands are written.  The handle is taken over from the
database of the camera's connection when a walk through it is completed, and it is given up when the
connection is.  In between the registry may drop the database and walk it once more, because
connections may report again that they are encrypted; the camera keeps the handle while that goes
on.

So a command goes to the handle that the last completed walk found (`Resolved`), and this is the
handle that the registry gives at that moment exactly as long as no further encryption was reported
since (`Current`).  `Run.command_resolved` states both, and `command_during_walk` is a run in which
they come apart.
-/

namespace CameraCentral

namespace Link

variable {history : List Turn} {turn : Turn} {conn : ConnHandle} {scanner : Scanner} {link : Link}

/-! ## Completed walks -/

/-- In this turn the walk of a connection is completed. -/
def Turn.Completes (conn : ConnHandle) (turn : Turn) : Prop :=
  turn.before.progress? conn ≠ some .complete ∧ turn.after.progress? conn = some .complete

instance (conn : ConnHandle) : DecidablePred (Turn.Completes conn) :=
  fun _ => inferInstanceAs (Decidable (_ ∧ _))

/-- In this turn the walk of a connection is completed, and the database gives this handle for
commands, if it gives one. -/
def Turn.Finds (conn : ConnHandle) (handle? : Option AttHandle) (turn : Turn) : Prop :=
  turn.Completes conn ∧ turn.after.commandHandle? conn = handle?

/-- The last walk of a connection that was completed found this handle for commands, if it found
one, and the connection has not been added to the registry since. -/
def Resolved (conn : ConnHandle) (handle? : Option AttHandle) (history : List Turn) : Prop :=
  Since (fun turn => ¬ turn.Adds conn ∧ ¬ turn.Completes conn) (Turn.Finds conn handle?) history

/-- As for `Resolved`, and no further encryption of the connection was reported since. -/
def Current (conn : ConnHandle) (handle? : Option AttHandle) (history : List Turn) : Prop :=
  Since (fun turn => (¬ turn.Adds conn ∧ ¬ turn.Completes conn) ∧ ¬ turn.Encrypts conn)
    (Turn.Finds conn handle?) history

/-! ## The entry of a completed walk -/

section

variable {link' : Link} {call : Call} {exchanges : List Exchange} {response : Response}

/-- A turn that does not restart the walk of a registered connection leaves the entry of a completed
walk alone, unless it drops it. -/
theorem PeerChange.eq_of_complete {entry : Option Peer} (change : PeerChange link call conn entry)
    (complete : link.progress? conn = some .complete)
    (quiet : call.event?.bind Event.encrypted? ≠ some conn) :
    entry = link.peers.find? conn ∨ entry = none := by
  unfold progress? at complete
  cases change with
  | same _ => exact .inl rfl
  | dropped => exact .inr rfl
  | added address up unknown room =>
    rw [unknown] at complete
    cases complete
  | restarted encrypted peer known halted progress h => exact absurd encrypted quiet
  | walked finding event peer peer' known exchanges outcome walk =>
    rw [known] at complete ⊢
    have hcomplete : peer.progress = .complete := Option.some.inj complete
    have halted : ¬ peer.progress.InFlight := by
      rw [hcomplete]
      exact id
    obtain ⟨-, rfl, -⟩ := walk.of_not_inFlight halted
    exact .inl rfl

/-- After a report of encryption no walk of the connection is complete. -/
theorem Step.not_complete_of_encrypted (h : Step link call exchanges link' response)
    (encrypted : call.event?.bind Event.encrypted? = some conn) :
    link'.progress? conn ≠ some .complete := by
  intro complete
  cases h with
  | scan step => cases step <;> simp [Call.event?, Event.encrypted?] at encrypted
  | ignored event h =>
    cases event with
    | encryptionChange other status =>
      obtain ⟨-, rfl⟩ : status.IsSuccess ∧ other = conn := by
        simpa [Call.event?, Event.encrypted?] using encrypted
      have unknown : link.peers.find? other = none := h
      rw [progress?, unknown] at complete
      cases complete
    | _ => cases encrypted
  | unencrypted other status failed peer known down =>
    simp [Call.event?, Event.encrypted?, failed] at encrypted
  | walkRunning other status success peer known running =>
    obtain rfl : other = conn :=
      Option.some.inj ((Call.encrypted_of_success success other).symm.trans encrypted)
    rw [progress?_refreshed_self known (Registry.conn_of_find?_eq_some known)] at complete
    exact running.ne_complete (Option.some.inj complete)
  | walkStarted other status success peer known halted =>
    obtain rfl : other = conn :=
      Option.some.inj ((Call.encrypted_of_success success other).symm.trans encrypted)
    have hconn : peer.conn = other := Registry.conn_of_find?_eq_some known
    have restarted : (link.refreshed { peer with services := [], progress := .services }).progress?
        other = some .services := progress?_refreshed_self known hconn
    cases restarted.symm.trans complete
  | walkRefused other status success peer known halted why down =>
    obtain rfl : other = conn :=
      Option.some.inj ((Call.encrypted_of_success success other).symm.trans encrypted)
    have hconn : peer.conn = other := Registry.conn_of_find?_eq_some known
    have restarted : (link.refreshed { peer with services := [], progress := .failed }).progress?
        other = some .failed := progress?_refreshed_self known hconn
    cases restarted.symm.trans (down.uncompleted other complete)
  | _ => simp [Call.event?, Event.encrypted?] at encrypted

/-- Nothing but a command is written without confirmation, and it goes to the camera's handle. -/
theorem Step.camera_of_command (h : Step link call exchanges link' response) {x : Exchange}
    (hx : x ∈ exchanges) {handle : AttHandle} {payload : Bytes}
    (hrequest : x.request = .writeNoResponse conn handle payload) :
    link.camera.conn = some conn ∧ link.camera.commandHandle = some handle := by
  have cause := h.cause hx (congrArg Request.conn? hrequest)
  rw [hrequest] at cause
  cases cause with
  | established up request outside => exact absurd (by simp [Request.IsGatt, Request.kind]) outside
  | walk peer known running request asks => simp [Request.kind] at asks
  | command handle payload mine resolved => exact ⟨mine, resolved⟩

end

/-! ## What the camera's handle stands for -/

/-- The camera's handle for commands, and the completed walks of the registry, go back to turns in
which a walk was completed. -/
structure InStep (history : List Turn) (link : Link) : Prop where
  homed : link.Homed
  camera : ∀ conn handle, link.camera.conn = some conn → link.camera.commandHandle = some handle →
    Resolved conn (some handle) history
  registry : ∀ conn handle?, (link.peers.find? conn).isSome →
    (link.progress? conn = some .complete ∧ link.commandHandle? conn = handle? ↔
      Current conn handle? history)

theorem inStep_new (scanner : Scanner) : InStep [] (new scanner) where
  homed := homed_new scanner
  camera _ _ h _ := by cases h
  registry _ _ h := by cases h

/-- The camera's handle goes back to a completed walk after a turn if it did before. -/
theorem InStep.camera_after (h : InStep history turn.before) {handle : AttHandle}
    (mine : turn.after.camera.conn = some conn)
    (hhandle : turn.after.camera.commandHandle = some handle) :
    Resolved conn (some handle) (history ++ [turn]) := by
  refine since_concat_iff.2 ?_
  have change := turn.step.cameraChange
  generalize turn.after.camera = camera at change mine hhandle
  cases change with
  | same uncompleted =>
    obtain ⟨peer, hpeer⟩ := Option.isSome_iff_exists.1 (h.homed conn mine)
    have hcompletes : ¬ turn.Completes conn := fun ⟨incomplete, complete⟩ =>
      incomplete (uncompleted conn mine complete)
    exact .inr ⟨⟨Turn.not_adds_of_known hpeer, hcompletes⟩, h.camera conn handle mine hhandle⟩
  | lost => cases mine
  | gained other address up unknown => cases hhandle
  | resolved other finding hmine peer known running complete =>
    obtain rfl : other = conn := Option.some.inj (hmine.symm.trans mine)
    refine .inl ⟨⟨?_, complete⟩, hhandle⟩
    intro hbefore
    rw [progress?, known] at hbefore
    exact running.ne_complete (Option.some.inj hbefore)

/-- What follows for the entry of a connection from its walk being complete before a turn in which
it is not reported to be encrypted: it stays as it is, or it is dropped. -/
theorem Turn.eq_of_complete (complete : turn.before.progress? conn = some .complete)
    (quiet : ¬ turn.Encrypts conn) :
    turn.after.peers.find? conn = turn.before.peers.find? conn ∨
      turn.after.peers.find? conn = none := by
  have change := turn.step.peerChange conn
  exact change.eq_of_complete complete (by rwa [Call.event?_direct])

/-- A connection whose walk is complete after a turn was not reported to be encrypted in it. -/
theorem Turn.not_encrypts_of_complete (complete : turn.after.progress? conn = some .complete) :
    ¬ turn.Encrypts conn := by
  intro encrypted
  unfold Turn.Encrypts at encrypted
  rw [← Call.event?_direct] at encrypted
  exact turn.step.not_complete_of_encrypted encrypted complete

/-- A connection that is registered after a turn and was not added in it was registered before. -/
theorem Turn.known_before (known : (turn.after.peers.find? conn).isSome)
    (hadds : ¬ turn.Adds conn) : (turn.before.peers.find? conn).isSome := by
  have change := turn.step.peerChange conn
  generalize turn.after.peers.find? conn = entry at change known
  cases change with
  | same _ => exact known
  | dropped => cases known
  | added address up unknown room =>
    rw [Call.event?_direct] at up
    exact absurd ⟨up, unknown, room⟩ hadds
  | restarted encrypted peer hpeer halted progress _ => rw [hpeer]; rfl
  | walked finding event peer peer' hpeer exchanges outcome walk => rw [hpeer]; rfl

/-- The completed walks of the registry go back to the turns that completed them after a turn if
they did before. -/
theorem InStep.registry_after (h : InStep history turn.before) {handle? : Option AttHandle}
    (known : (turn.after.peers.find? conn).isSome) :
    turn.after.progress? conn = some .complete ∧ turn.after.commandHandle? conn = handle? ↔
      Current conn handle? (history ++ [turn]) := by
  refine Iff.trans ?_ since_concat_iff.symm
  constructor
  · rintro ⟨complete, hhandle⟩
    have quiet : ¬ turn.Encrypts conn := Turn.not_encrypts_of_complete complete
    by_cases hbefore : turn.before.progress? conn = some .complete
    · have hcompletes : ¬ turn.Completes conn := fun hcompletes => hcompletes.1 hbefore
      rcases Turn.eq_of_complete hbefore quiet with heq | heq
      · obtain ⟨peer, hpeer⟩ := Option.isSome_iff_exists.1 (heq ▸ known)
        refine .inr ⟨⟨⟨Turn.not_adds_of_known hpeer, hcompletes⟩, quiet⟩, ?_⟩
        refine (h.registry conn handle? (by rw [hpeer]; rfl)).1 ⟨hbefore, ?_⟩
        rwa [commandHandle?, heq] at hhandle
      · rw [heq] at known
        cases known
    · exact .inl ⟨⟨hbefore, complete⟩, hhandle⟩
  · rintro (⟨⟨-, complete⟩, hhandle⟩ | ⟨⟨⟨hadds, -⟩, quiet⟩, hcurrent⟩)
    · exact ⟨complete, hhandle⟩
    · have hknown := Turn.known_before known hadds
      obtain ⟨hbefore, hhandle⟩ := (h.registry conn handle? hknown).2 hcurrent
      rcases Turn.eq_of_complete hbefore quiet with heq | heq
      · rw [progress?, commandHandle?, heq]
        exact ⟨hbefore, hhandle⟩
      · rw [heq] at known
        cases known

/-- **A turn leaves the camera and the registry in step with the past.** -/
theorem InStep.concat (h : InStep history turn.before) :
    InStep (history ++ [turn]) turn.after where
  homed := turn.step.homed h.homed
  camera _ _ mine hhandle := h.camera_after mine hhandle
  registry _ _ known := h.registry_after known

/-- In every run the camera and the registry are in step with the past. -/
theorem Run.inStep (run : Run (new scanner) history link) : InStep history link :=
  run.invariant InStep (inStep_new scanner) fun _ _ h => h.concat

/-! ## Commands -/

/-- **Commands go to the handle that the last completed walk found.**  In every run of a new link, a
command goes to a registered connection, and to the handle that the last completed walk through its
database found since the connection was added to the registry.  At that moment the walk is complete
and the database gives this handle if and only if no further encryption of the connection was
reported since that walk was completed. -/
theorem Run.command_resolved (run : Run (new scanner) (history ++ [turn]) link) {x : Exchange}
    (hx : x ∈ turn.exchanges) {handle : AttHandle} {payload : Bytes}
    (hrequest : x.request = .writeNoResponse conn handle payload) :
    (turn.before.peers.find? conn).isSome ∧ Resolved conn (some handle) history ∧
      (turn.before.progress? conn = some .complete ∧
          turn.before.commandHandle? conn = some handle ↔ Current conn (some handle) history) := by
  obtain ⟨run, -⟩ := run_concat_iff.1 run
  have h : InStep history turn.before := run.inStep
  obtain ⟨mine, hhandle⟩ := turn.step.camera_of_command hx hrequest
  have known : (turn.before.peers.find? conn).isSome := h.homed conn mine
  exact ⟨known, h.camera conn handle mine hhandle, h.registry conn (some handle) known⟩

/-- A command at the end of the visit goes to the handle that the walk found. -/
theorem command_resolved_visit :
    let history := playback (new {}) visit
    let turn := Turn.against Script.reply {} (after (new {}) visit) (.write Camera.shutterOn)
    Run (new {}) (history ++ [turn]) turn.after ∧
      ⟨.writeNoResponse 5 3 Camera.shutterOn, .accepted⟩ ∈ turn.exchanges ∧
        Resolved 5 (some 3) history ∧ Current 5 (some 3) history := by
  intro history turn
  have run : Run (new {}) (history ++ [turn]) turn.after :=
    run_concat_iff.2 ⟨run_playback (new {}) visit, rfl⟩
  have hx : ⟨.writeNoResponse 5 3 Camera.shutterOn, .accepted⟩ ∈ turn.exchanges := by decide
  obtain ⟨-, resolved, hcurrent⟩ := Run.command_resolved run hx rfl
  exact ⟨run, hx, resolved, hcurrent.1 ⟨by decide, by decide⟩⟩

/-- A command can go out while the database is walked again: when the connection is reported to be
encrypted once more after the visit, the registry drops the database and the camera keeps its
handle. -/
theorem command_during_walk :
    let calls := visit ++ [(Call.event (.encryptionChange 5 .success), ({} : Script))]
    let history := playback (new {}) calls
    let turn := Turn.against Script.reply {} (after (new {}) calls) (.write Camera.shutterOn)
    Run (new {}) (history ++ [turn]) turn.after ∧
      ⟨.writeNoResponse 5 3 Camera.shutterOn, .accepted⟩ ∈ turn.exchanges ∧
        turn.before.progress? 5 = some .services ∧ turn.before.commandHandle? 5 = none := by
  intro calls history turn
  have run : Run (new {}) (history ++ [turn]) turn.after :=
    run_concat_iff.2 ⟨run_playback (new {}) calls, rfl⟩
  exact ⟨run, by decide, by decide, by decide⟩

end Link

end CameraCentral
