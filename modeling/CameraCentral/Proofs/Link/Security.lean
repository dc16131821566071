import CameraCentral.Proofs.Link.Traffic

/-!
# After encryption failed

When a registered connection is reported to be not encrypted, the host is asked to drop it.  If the
host refuses, the link forgets the connection at once, and from then on there is nothing that could
make it ask the database of the connection for anything.  If the host accepts, the link stays as it
is until the connection is reported to be down.  What it had begun goes on in the meantime: a walk
that was under way takes in what still arrives, and commands go to the camera's handle if it was
known.

Requests to a database come from something *live* (`Link.Live`): a walk that is under way, or a
handle for commands.  Nothing becomes live on a connection that is not reported to be encrypted
(`Turn.live_before`), so whatever is live after a failure was live before it and has been all along.
`Run.request_after_failure` reads off what this means for requests.
-/

namespace CameraCentral

/-- The connection that could not be encrypted according to an event. -/
def Event.unencrypted? : Event → Option ConnHandle
  | encryptionChange conn status => if status.IsSuccess then none else some conn
  | _ => none

namespace Link

variable {history earlier later : List Turn} {turn failure : Turn} {conn : ConnHandle}
  {scanner : Scanner} {link : Link}

/-- In this turn a registered connection is reported to be not encrypted. -/
def Turn.Fails (conn : ConnHandle) (turn : Turn) : Prop :=
  turn.call.event?.bind Event.unencrypted? = some conn ∧
    (turn.before.peers.find? conn).isSome

instance (conn : ConnHandle) : DecidablePred (Turn.Fails conn) :=
  fun _ => inferInstanceAs (Decidable (_ ∧ _))

/-! ## What is live -/

/-- The walk of a connection is under way. -/
def Walking (link : Link) (conn : ConnHandle) : Prop :=
  ∃ peer, link.peers.find? conn = some peer ∧ peer.progress.InFlight

/-- The camera is at a connection, and its handle for commands is known. -/
def Commanding (link : Link) (conn : ConnHandle) : Prop :=
  link.camera.conn = some conn ∧ link.camera.commandHandle.isSome

/-- Something can lead to a request to the database of a connection. -/
def Live (link : Link) (conn : ConnHandle) : Prop := link.Walking conn ∨ link.Commanding conn

/-- What is live on a connection is live on a registered one. -/
theorem Live.registered (live : link.Live conn) (homed : link.Homed) :
    (link.peers.find? conn).isSome := by
  rcases live with ⟨peer, known, -⟩ | ⟨mine, -⟩
  · rw [known]
    rfl
  · exact homed conn mine

/-- A walk that is under way after a turn was under way before it, unless the connection was
reported to be encrypted. -/
theorem Turn.walking_before (quiet : ¬ turn.Encrypts conn) (walking : turn.after.Walking conn) :
    turn.before.Walking conn := by
  obtain ⟨peer, hpeer, running⟩ := walking
  have change := turn.step.peerChange conn
  rw [hpeer] at change
  generalize hentry : some peer = entry at change
  cases change with
  | same _ => exact ⟨peer, hentry.symm, running⟩
  | dropped => cases hentry
  | added address up unknown room =>
    cases hentry
    exact running.elim
  | restarted encrypted old known halted progress h =>
    rw [Call.event?_direct] at encrypted
    exact absurd encrypted quiet
  | walked finding event old peer' known exchanges outcome walk =>
    obtain rfl := Option.some.inj hentry
    have hrunning : old.progress.InFlight := by
      refine Decidable.byContradiction fun halted => ?_
      obtain ⟨-, rfl, -⟩ := walk.of_not_inFlight halted
      exact halted running
    exact ⟨old, known, hrunning⟩

/-- A handle for commands that is known after a turn was known before it, unless a walk was under
way that found it. -/
theorem Turn.live_of_commanding (commanding : turn.after.Commanding conn) :
    turn.before.Live conn := by
  obtain ⟨mine, resolved⟩ := commanding
  have change := turn.step.cameraChange
  generalize turn.after.camera = camera at change mine resolved
  cases change with
  | same _ => exact .inr ⟨mine, resolved⟩
  | lost => cases mine
  | gained other address up unknown => cases resolved
  | resolved other finding hmine peer known running complete =>
    obtain rfl : other = conn := Option.some.inj (hmine.symm.trans mine)
    exact .inl ⟨peer, known, running⟩

/-- **Nothing becomes live on a connection that is not reported to be encrypted.** -/
theorem Turn.live_before (quiet : ¬ turn.Encrypts conn) (live : turn.after.Live conn) :
    turn.before.Live conn := by
  rcases live with walking | commanding
  · exact .inl (Turn.walking_before quiet walking)
  · exact Turn.live_of_commanding commanding

/-- What is live behind a request to the database of a connection that is not just reported to be
encrypted: no walk is started, commands go to the camera, and the rest is the walk's. -/
theorem Turn.behind_gatt (quiet : ¬ turn.Encrypts conn) {x : Exchange} (hx : x ∈ turn.exchanges)
    (hconn : x.request.conn? = some conn) (gatt : x.request.IsGatt) :
    x.request.kind ≠ .discoverServices ∧
      (turn.before.Walking conn ∨
        turn.before.Commanding conn ∧ x.request.kind = .writeNoResponse) := by
  have cause := turn.step.cause hx hconn
  generalize x.request = request at cause gatt ⊢
  cases cause with
  | established up request outside => exact absurd gatt outside
  | dropping known reason => exact absurd gatt (Request.not_isGatt_terminate conn reason)
  | encrypted known encrypted =>
    rw [Call.event?_direct] at encrypted
    exact absurd encrypted quiet
  | walk peer known running request asks =>
    refine ⟨fun hkind => ?_, .inl ⟨peer, known, running⟩⟩
    simp [hkind] at asks
  | command handle payload mine resolved =>
    have hresolved : turn.before.camera.commandHandle.isSome := by
      rw [resolved]
      rfl
    exact ⟨by simp [Request.kind], .inr ⟨⟨mine, hresolved⟩, rfl⟩⟩

/-! ## The failure -/

/-- The only thing that is done about a registered connection that is not encrypted is to ask the
host to drop it. -/
theorem Step.terminates_of_unencrypted {link' : Link} {call : Call} {exchanges : List Exchange}
    {response : Response} (h : Step link call exchanges link' response)
    (failed : call.event?.bind Event.unencrypted? = some conn)
    (known : (link.peers.find? conn).isSome) :
    ∃ reaction, link.Terminates conn exchanges link' reaction := by
  cases h with
  | scan step => cases step <;> simp [Call.event?, Event.unencrypted?] at failed
  | ignored event ignores =>
    cases event with
    | encryptionChange other status =>
      obtain ⟨-, rfl⟩ : ¬ status.IsSuccess ∧ other = conn := by
        simpa [Call.event?, Event.unencrypted?] using failed
      have unknown : link.peers.find? other = none := ignores
      rw [unknown] at known
      cases known
    | _ => cases failed
  | unencrypted other status hfailed peer hpeer down =>
    obtain rfl : other = conn := by
      simpa [Call.event?, Event.unencrypted?, hfailed] using failed
    exact ⟨_, down⟩
  | walkRunning other status success peer hpeer running =>
    simp [Call.event?, Event.unencrypted?, success] at failed
  | walkStarted other status success peer hpeer halted =>
    simp [Call.event?, Event.unencrypted?, success] at failed
  | walkRefused other status success peer hpeer halted why down =>
    simp [Call.event?, Event.unencrypted?, success] at failed
  | _ => simp [Call.event?, Event.unencrypted?] at failed

/-- After a failure the host drops the connection and the link waits for that, or the connection is
not registered any more. -/
theorem Turn.Fails.cases (fails : turn.Fails conn) :
    (turn.exchanges = [⟨.terminate conn Settings.terminateReason, .accepted⟩] ∧
      turn.after = turn.before) ∨ turn.after.peers.find? conn = none := by
  obtain ⟨failed, known⟩ := fails
  rw [← Call.event?_direct] at failed
  obtain ⟨reaction, down⟩ := turn.step.terminates_of_unencrypted failed known
  generalize turn.exchanges = exchanges at down
  generalize hafter : turn.after = link' at down
  cases down with
  | accepted => exact .inl ⟨rfl, rfl⟩
  | refused why =>
    rw [peers_dropLink]
    exact .inr (Registry.find?_erase_self _ conn)

/-! ## Requests after a failure -/

/-- What is live on a connection that was not reported to be encrypted meanwhile has been live all
along, and the connection has been registered all along. -/
theorem Run.live_since {start : Link} (run : Run start later link) (homed : start.Homed)
    (quiet : ∀ t ∈ later, ¬ t.Encrypts conn) (live : link.Live conn) :
    start.Live conn ∧ ∀ t ∈ later, (t.after.peers.find? conn).isSome := by
  obtain ⟨hlive, hstart⟩ := Run.backward (p := fun state => Live state conn) run live
    fun t ht => Turn.live_before (quiet t ht)
  obtain ⟨hhomed, -⟩ := run.forward homed fun t _ => t.step.homed
  exact ⟨hstart, fun t ht => (hlive t ht).registered (t.step.homed (hhomed t ht))⟩

/-- A walk of a connection that was not reported to be encrypted meanwhile has been under way all
along. -/
theorem Run.walking_since {start : Link} (run : Run start later link)
    (quiet : ∀ t ∈ later, ¬ t.Encrypts conn) (walking : link.Walking conn) :
    start.Walking conn := by
  obtain ⟨-, hstart⟩ := Run.backward (p := fun state => Walking state conn) run walking
    fun t ht => Turn.walking_before (quiet t ht)
  exact hstart

/-- **Requests after a failure.**  In every run of a new link, let a registered connection be
reported to be not encrypted, and let no report follow that it is.  Then the database of the
connection is not asked for its services; and any other request to it means that the host agreed to
drop the connection, that the link was left as it was by the failure, that the connection has been
registered ever since, and that its walk was under way at the failure, or else that the request is a
command and the camera was at the connection with its handle for commands known. -/
theorem Run.request_after_failure
    (run : Run (new scanner) (earlier ++ failure :: (later ++ [turn])) link)
    (fails : failure.Fails conn) (quiet : ∀ t ∈ later ++ [turn], ¬ t.Encrypts conn)
    {x : Exchange} (hx : x ∈ turn.exchanges) (hconn : x.request.conn? = some conn)
    (gatt : x.request.IsGatt) :
    x.request.kind ≠ .discoverServices ∧
      failure.exchanges = [⟨.terminate conn Settings.terminateReason, .accepted⟩] ∧
        failure.after = failure.before ∧ (∀ t ∈ later, (t.after.peers.find? conn).isSome) ∧
          (failure.before.Walking conn ∨
            failure.before.Commanding conn ∧ x.request.kind = .writeNoResponse) := by
  obtain ⟨start, hearlier, hfailure⟩ := run_append_iff.1 run
  obtain ⟨rfl, hrest⟩ := run_cons_iff.1 hfailure
  obtain ⟨hlater, -⟩ := run_concat_iff.1 hrest
  have hquiet : ∀ t ∈ later, ¬ t.Encrypts conn := fun t ht => quiet t (List.mem_append_left _ ht)
  have homed : failure.after.Homed := failure.step.homed hearlier.homed
  obtain ⟨hservices, behind⟩ := Turn.behind_gatt (quiet turn (by simp)) hx hconn gatt
  have live : turn.before.Live conn := behind.imp_right And.left
  -- What is live now is followed back to the failure, where it decides what the host said.
  obtain ⟨hstart, hknown⟩ := hlater.live_since homed hquiet live
  rcases fails.cases with ⟨hexchanges, hsame⟩ | hgone
  · refine ⟨hservices, hexchanges, hsame, hknown, ?_⟩
    rw [hsame] at hlater hstart
    rcases behind with walking | ⟨-, hcommand⟩
    · exact .inl (hlater.walking_since hquiet walking)
    · exact hstart.imp_right fun commanding => ⟨commanding, hcommand⟩
  · have hregistered := hstart.registered homed
    rw [hgone] at hregistered
    cases hregistered

/-- The host refuses to drop the connection of the visit after it could not be encrypted once more:
nothing is asked of its database any more until it is reported to be encrypted. -/
theorem request_after_failure_visit :
    let failure := Turn.against Script.reply { rules := [(.terminate, ⟨.busy, 0, none⟩)] }
      (after (new {}) visit) (.event (.encryptionChange 5 ⟨1⟩))
    Run (new {}) (playback (new {}) visit ++ [failure]) failure.after ∧ failure.Fails 5 ∧
      ∀ turn : Turn, turn.before = failure.after → ¬ turn.Encrypts 5 → ∀ x ∈ turn.exchanges,
        x.request.conn? = some 5 → ¬ x.request.IsGatt := by
  intro failure
  have hvisit : Run (new {}) (playback (new {}) visit) (after (new {}) visit) :=
    run_playback (new {}) visit
  have run : Run (new {}) (playback (new {}) visit ++ [failure]) failure.after :=
    hvisit.concat failure rfl
  have fails : failure.Fails 5 := by decide
  refine ⟨run, fails, fun turn hturn quiet x hx hconn gatt => ?_⟩
  have hrun : Run (new {}) (playback (new {}) visit ++ failure :: ([] ++ [turn])) turn.after := by
    have hnext := run.concat turn hturn
    rwa [List.append_assoc] at hnext
  have hquiet : ∀ t ∈ [] ++ [turn], ¬ t.Encrypts 5 := by
    intro t ht
    obtain rfl : t = turn := by simpa using ht
    exact quiet
  obtain ⟨-, haccepted, -⟩ := Run.request_after_failure hrun fails hquiet hx hconn gatt
  have hrefused : failure.exchanges ≠ [⟨.terminate 5 Settings.terminateReason, .accepted⟩] := by
    decide
  exact hrefused haccepted

/-- The turn in which connection 5 cannot be encrypted after some calls, and the host agrees to drop
it. -/
def failing (calls : List (Call × Script)) : Turn :=
  Turn.against Script.reply {} (after (new {}) calls) (.event (.encryptionChange 5 ⟨1⟩))

/-- One more call after that makes a run. -/
theorem run_failing (calls : List (Call × Script)) (turn : Turn)
    (next : turn.before = (failing calls).after) :
    Run (new {}) (playback (new {}) calls ++ failing calls :: ([] ++ [turn])) turn.after := by
  have hplayed : Run (new {}) (playback (new {}) calls) (failing calls).before :=
    run_playback (new {}) calls
  have run := (hplayed.concat (failing calls) rfl).concat turn next
  rwa [List.append_assoc] at run

/-- The database can be asked for something after a failure when the host agrees to drop the
connection of the visit: a command goes to the handle that the camera keeps until that has happened,
and a walk that had found its service goes on to the characteristics of it. -/
theorem requests_after_failure :
    let command := Turn.against Script.reply {} (failing visit).after (.write Camera.shutterOn)
    let walk := Turn.against Script.reply {} (failing (visit.take 3)).after
      (.event (.discovery 5 (.servicesDone .success)))
    (Run (new {}) (playback (new {}) visit ++ failing visit :: ([] ++ [command])) command.after ∧
      (failing visit).Fails 5 ∧ ¬ command.Encrypts 5 ∧
        ⟨.writeNoResponse 5 3 Camera.shutterOn, .accepted⟩ ∈ command.exchanges) ∧
    Run (new {}) (playback (new {}) (visit.take 3) ++ failing (visit.take 3) :: ([] ++ [walk]))
        walk.after ∧
      (failing (visit.take 3)).Fails 5 ∧ ¬ walk.Encrypts 5 ∧
        ⟨.discoverCharacteristics 5 1 3, .accepted⟩ ∈ walk.exchanges := by
  intro command walk
  have hcommand := run_failing visit command rfl
  have hwalk := run_failing (visit.take 3) walk rfl
  exact ⟨⟨hcommand, by decide, by decide, by decide⟩, hwalk, by decide, by decide, by decide⟩

end Link

end CameraCentral
