import CameraCentral.Proofs.Link.Exclusion
import CameraCentral.Proofs.Link.Stopping

/-!
# When scanning comes back

A scan comes back by itself after a pause, and it is the reaction to an event that asks for the
pause.  There are two sides to it.  The link decides whether something happened after which one
would look for a camera again: `Loss` lists what that is, and `Step.ending` says that a turn with a
loss ends with the reaction of the scanner, and that any other turn announces nothing and keeps the
camera.  The scanner decides whether that is wanted, and what is wanted is what was asked for last
(`Run.wanted_iff`).

`Run.restart_iff` puts the two together.  So a camera is not lost without scanning coming back,
unless somebody stopped it, or nobody ever asked for it, or a scan is running anyway.
`lost_unasked` is a run in which nobody ever asked.
-/

namespace CameraCentral

/-- A restart is announced exactly if a scan is wanted and none is running. -/
theorem Scanner.restartReaction_eq_iff (scanner : Scanner) :
    scanner.restartReaction = .restartScanAfter Settings.scanRestartDelayMs ↔
      scanner.wanted ∧ ¬ scanner.running := by
  unfold restartReaction
  by_cases h : Settings.autoRescan ∧ scanner.wanted ∧ ¬ scanner.running
  · rw [if_pos h]
    exact ⟨fun _ => h.2, fun _ => rfl⟩
  · rw [if_neg h]
    constructor
    · rintro ⟨⟩
    · intro hwanted
      exact absurd ⟨rfl, hwanted⟩ h

namespace Link

variable {link link' : Link} {call : Call} {exchanges : List Exchange} {response : Response}
  {conn : ConnHandle} {reaction : Reaction} {event? : Option Event}

/-! ## What was asked for -/

/-- A scan was asked for, and scanning was not stopped since. -/
def Wants (history : List Turn) : Prop :=
  Since (fun turn => turn.call.direct ≠ .stopScan) (fun turn => turn.call.direct = .startScan)
    history

/-- Scanning was stopped, and no scan was asked for since. -/
def Declines (history : List Turn) : Prop :=
  Since (fun turn => turn.call.direct ≠ .startScan) (fun turn => turn.call.direct = .stopScan)
    history

/-- No scan was ever asked for, and scanning was never stopped. -/
def Unasked (history : List Turn) : Prop :=
  ∀ turn ∈ history, turn.call.direct ≠ .startScan ∧ turn.call.direct ≠ .stopScan

instance (history : List Turn) : Decidable (Wants history) :=
  inferInstanceAs (Decidable (Since _ _ history))

instance (history : List Turn) : Decidable (Declines history) :=
  inferInstanceAs (Decidable (Since _ _ history))

/-- Where a scan was not asked for last, scanning was stopped last, or nothing was ever asked. -/
theorem declines_or_unasked (history : List Turn) (h : ¬ Wants history) :
    Declines history ∨ Unasked history := by
  -- The induction is on the history from its end, where `Since` can be followed.
  obtain ⟨reversed, rfl⟩ : ∃ reversed : List Turn, reversed.reverse = history :=
    ⟨history.reverse, history.reverse_reverse⟩
  induction reversed with
  | nil => exact .inr fun turn hturn => by cases hturn
  | cons turn reversed ih =>
    rw [List.reverse_cons] at h ⊢
    unfold Wants at h
    rw [since_concat_iff, not_or, not_and] at h
    obtain ⟨unstarted, hbefore⟩ := h
    by_cases stopped : turn.call.direct = .stopScan
    · exact .inl (since_concat_iff.2 (.inl stopped))
    · rcases ih (hbefore stopped) with declined | unasked
      · exact .inl (since_concat_iff.2 (.inr ⟨unstarted, declined⟩))
      · refine .inr fun t ht => ?_
        rcases List.mem_append.1 ht with ht | ht
        · exact unasked t ht
        · obtain rfl := List.mem_singleton.1 ht
          exact ⟨unstarted, stopped⟩

/-- A scan is wanted after a turn if it is started, or if it was wanted and is not stopped. -/
theorem ScanStep.wanted_iff (step : ScanStep link call exchanges link' response) :
    link'.scanner.wanted ↔ call = .startScan ∨ call ≠ .stopScan ∧ link.scanner.wanted := by
  cases step <;> simp [searching, resting, Scanner.want, Scanner.complete]

/-- Starts and stops alone decide whether a scan is wanted. -/
theorem Step.wanted_iff (step : Step link call exchanges link' response) :
    link'.scanner.wanted ↔ call = .startScan ∨ call ≠ .stopScan ∧ link.scanner.wanted := by
  rcases step.scan_or_elsewhere with scan | elsewhere
  · exact scan.wanted_iff
  · rw [elsewhere.scanner]
    simp [elsewhere.unstarted, elsewhere.unstopped]

/-- **A scan is wanted exactly if it was asked for last.** -/
theorem Run.wanted_iff {params : ScanParams} {history : List Turn}
    (run : Run (new { params }) history link) : link.scanner.wanted ↔ Wants history := by
  refine run.invariant (fun history link => link.scanner.wanted ↔ Wants history) ?_ ?_
  · exact ⟨fun h => absurd h Bool.false_ne_true, fun h => absurd h (not_since_nil _ _)⟩
  · intro history turn ih
    unfold Wants
    rw [turn.step.wanted_iff, ih, since_concat_iff]
    exact Iff.rfl

/-! ## Losing a camera -/

/-- A connection is registered before a turn, or registered in it: it is reported to be up, and the
registry has room for it. -/
def Holds (link : Link) (event? : Option Event) (conn : ConnHandle) : Prop :=
  (link.peers.find? conn).isSome ∨
    event?.bind Event.established? = some conn ∧ link.peers.find? conn = none ∧
      link.peers.peers.length < Settings.maxPeers

/-- A connection is given up: it is reported to be down, or the host refuses to drop it. -/
def GivesUp (event? : Option Event) (exchanges : List Exchange) (conn : ConnHandle) : Prop :=
  event?.bind Event.disconnected? = some conn ∨
    ∃ why, ⟨.terminate conn Settings.terminateReason, .refused why⟩ ∈ exchanges

/-- What can happen after which one would look for a camera again. -/
inductive Loss (link : Link) (event? : Option Event) (exchanges : List Exchange) (link' : Link) :
    Prop where
  /-- A connection attempt is reported to have failed. -/
  | failed (conn : ConnHandle) (address : Address) (status : Status)
      (event : event? = some (.linkEstablished conn address status))
      (failure : ¬ status.IsSuccess) : Loss link event? exchanges link'
  /-- The host refuses to connect. -/
  | refused (address : Address) (timeoutMs : UInt32) (why : HostFault)
      (asked : ⟨.connect address timeoutMs, .refused why⟩ ∈ exchanges) :
    Loss link event? exchanges link'
  /-- A connection that is registered is removed from the registry. -/
  | removed (conn : ConnHandle) (held : link.Holds event? conn)
      (gone : link'.peers.find? conn = none) : Loss link event? exchanges link'
  /-- While a connection is being made, one is given up that was not registered yet. -/
  | abandoned (conn : ConnHandle) (connecting : link.stage = .connecting)
      (unconnected : ¬ link.camera.IsConnected) (unknown : link.peers.find? conn = none)
      (down : GivesUp event? exchanges conn) : Loss link event? exchanges link'

/-- A camera is lost or cannot be reached in this turn. -/
def Turn.Loses (turn : Turn) : Prop :=
  Loss turn.before turn.call.event? turn.exchanges turn.after

/-- How a turn ends: with a loss and the reaction of the scanner to it, or without a loss; then no
restart is announced, and a camera that was connected still is. -/
inductive Ending (link : Link) (event? : Option Event) (exchanges : List Exchange) (link' : Link) :
    Response → Prop where
  | lost (loss : Loss link event? exchanges link') :
    Ending link event? exchanges link' (.reaction link'.scanner.restartReaction)
  | kept (whole : ¬ Loss link event? exchanges link') (response : Response)
      (unannounced : ∀ delayMs, response ≠ .reaction (.restartScanAfter delayMs))
      (camera : link.camera.IsConnected → link'.camera.IsConnected) :
    Ending link event? exchanges link' response

/-! ### Turns without a loss -/

/-- The host refuses neither to connect nor to drop a connection. -/
def Granted (exchanges : List Exchange) : Prop :=
  ∀ x ∈ exchanges, x.request.kind = .connect ∨ x.request.kind = .terminate → x.answer = .accepted

theorem granted_nil : Granted [] := nofun

/-- Other requests than to connect and to drop a connection may be refused. -/
theorem granted_of_kinds
    (h : ∀ x ∈ exchanges, x.request.kind ≠ .connect ∧ x.request.kind ≠ .terminate) :
    Granted exchanges := by
  rintro x hx (hconnect | hterminate)
  · exact absurd hconnect (h x hx).1
  · exact absurd hterminate (h x hx).2

theorem Granted.append {later : List Exchange} (first : Granted exchanges)
    (second : Granted later) : Granted (exchanges ++ later) := by
  intro x hx
  rcases List.mem_append.1 hx with hx | hx
  · exact first x hx
  · exact second x hx

theorem Granted.not_terminate (h : Granted exchanges) (reason : UInt8) (why : HostFault) :
    ⟨.terminate conn reason, .refused why⟩ ∉ exchanges := by
  intro hx
  cases h _ hx (.inr rfl)

/-- Nothing is lost in a turn in which no failure is reported and none is met, and every connection
that was registered still is. -/
theorem not_loss
    (reached : ∀ conn address status, event? = some (.linkEstablished conn address status) →
      status.IsSuccess)
    (granted : Granted exchanges) (up : ∀ conn, event?.bind Event.disconnected? ≠ some conn)
    (kept : ∀ conn, link.Holds event? conn → (link'.peers.find? conn).isSome) :
    ¬ Loss link event? exchanges link' := by
  intro loss
  cases loss with
  | failed conn address status event failure => exact failure (reached conn address status event)
  | refused address timeoutMs why asked => cases granted _ asked (.inl rfl)
  | removed conn held gone =>
    have hkept := kept conn held
    rw [gone] at hkept
    cases hkept
  | abandoned conn connecting unconnected unknown down =>
    rcases down with hdown | ⟨why, hasked⟩
    · exact up conn hdown
    · exact granted.not_terminate _ why hasked

/-- A plain call reports no failure, no end of a connection, and no connection to be up. -/
theorem Call.IsPlain.cases (plain : call.IsPlain) :
    (∀ conn address status, call.event? ≠ some (.linkEstablished conn address status)) ∧
      (∀ conn, call.event?.bind Event.disconnected? ≠ some conn) ∧
        ∀ conn, call.event?.bind Event.established? ≠ some conn := by
  cases call with
  | event event =>
    cases event <;> first
      | exact plain.elim
      | simp [Call.event?, Event.disconnected?, Event.established?]
  | startScan | stopScan | write _ | perform _ => simp [Call.event?]

/-- Nothing is lost in a plain turn that keeps the registered connections. -/
theorem not_loss_of_plain (plain : call.IsPlain) (granted : Granted exchanges)
    (kept : ∀ conn, (link.peers.find? conn).isSome → (link'.peers.find? conn).isSome) :
    ¬ Loss link call.event? exchanges link' := by
  obtain ⟨reached, up, unestablished⟩ := plain.cases
  refine not_loss (fun conn address status event => absurd event (reached conn address status))
    granted up ?_
  rintro conn (known | ⟨established, -⟩)
  · exact kept conn known
  · exact absurd established (unestablished conn)

/-- The ending of a plain turn that keeps the registry and the camera's connection. -/
theorem Ending.of_plain (plain : call.IsPlain) (granted : Granted exchanges)
    (kept : ∀ conn, (link.peers.find? conn).isSome → (link'.peers.find? conn).isSome)
    (unannounced : ∀ delayMs, response ≠ .reaction (.restartScanAfter delayMs))
    (camera : link'.camera.conn = link.camera.conn) :
    Ending link call.event? exchanges link' response := by
  refine .kept (not_loss_of_plain plain granted kept) response unannounced fun connected => ?_
  rwa [Camera.IsConnected, camera]

/-! ### Giving a connection up -/

/-- The reaction to losing a connection that is registered or the link's own is the scanner's. -/
theorem reaction_dropLink (ours : (link.peers.find? conn).isSome ∨ link.Owns conn) :
    (link.dropLink conn).2 = (link.dropLink conn).1.scanner.restartReaction := by
  unfold dropLink
  rw [if_pos ours]

/-- Asking the host to drop a connection that is registered ends in a loss if the host refuses. -/
theorem Terminates.ending {middle : Link} {asked : List Exchange}
    (down : middle.Terminates conn exchanges link' reaction)
    (known : (middle.peers.find? conn).isSome) (held : link.Holds event? conn)
    (whole : ∀ granted, Granted granted → ¬ Loss link event? (asked ++ granted) middle)
    (camera : link.camera.IsConnected → middle.camera.IsConnected) :
    Ending link event? (asked ++ exchanges) link' (.reaction reaction) := by
  cases down with
  | accepted => exact .kept (whole _ (by simp [Granted])) _ (by simp) camera
  | refused why =>
    rw [reaction_dropLink (.inl known)]
    refine .lost (.removed conn held ?_)
    rw [peers_dropLink]
    exact Registry.find?_erase_self _ conn

/-- A plain turn that asks the host to drop a registered connection in the end. -/
theorem Terminates.ending_of_plain {middle : Link} {asked : List Exchange}
    (down : middle.Terminates conn exchanges link' reaction) (plain : call.IsPlain)
    (granted : Granted asked) (known : (link.peers.find? conn).isSome)
    (kept : ∀ conn, (link.peers.find? conn).isSome → (middle.peers.find? conn).isSome)
    (camera : middle.camera = link.camera) :
    Ending link call.event? (asked ++ exchanges) link' (.reaction reaction) :=
  down.ending (kept conn known) (.inl known)
    (fun _ hgranted => not_loss_of_plain plain (granted.append hgranted) kept)
    (fun connected => by rwa [camera])

/-- Giving up one connection ends in a loss if it is registered, or if it is the one that was being
made; and otherwise in nothing. -/
theorem ending_dropLink (homed : link.Homed) (down : GivesUp event? exchanges conn)
    (held : ∀ other, link.Holds event? other → (link.peers.find? other).isSome)
    (reached : ∀ conn address status, event? = some (.linkEstablished conn address status) →
      status.IsSuccess)
    (unasked : ∀ x ∈ exchanges, x.request.kind ≠ .connect) :
    Ending link event? exchanges (link.dropLink conn).1 (.reaction (link.dropLink conn).2) := by
  by_cases known : (link.peers.find? conn).isSome
  · rw [reaction_dropLink (.inl known)]
    refine .lost (.removed conn (.inl known) ?_)
    rw [peers_dropLink]
    exact Registry.find?_erase_self _ conn
  by_cases owned : link.Owns conn
  · rw [reaction_dropLink (.inr owned)]
    rcases owned with mine | ⟨unconnected, connecting⟩
    · exact absurd (homed conn mine) known
    · exact .lost (.abandoned conn connecting unconnected (by simpa using known) down)
  · have hsame : link.dropLink conn = (link, .nothing) := by
      rw [dropLink, if_neg (not_or.2 ⟨known, owned⟩)]
    rw [hsame]
    refine .kept (fun loss => ?_) _ (by simp) id
    cases loss with
    | failed conn address status event failure => exact failure (reached conn address status event)
    | refused address timeoutMs why asked => exact unasked _ asked rfl
    | removed other hheld gone =>
      have hother := held other hheld
      rw [gone] at hother
      cases hother
    | abandoned other connecting unconnected unknown hdown =>
      exact owned (.inr ⟨unconnected, connecting⟩)

/-- A connection that cannot be registered is not registered. -/
theorem not_holds_of_full {address : Address} {why : Fault}
    (full : link.peers.add conn address = .error why) :
    ¬ (link.peers.find? conn = none ∧ link.peers.peers.length < Settings.maxPeers) := by
  rintro ⟨unknown, room⟩
  rw [Registry.add_eq_ok_iff.2 ⟨unknown, room, rfl⟩] at full
  cases full

/-! ### Every turn -/

/-- What a walk asks for is neither to connect nor to drop a connection. -/
theorem granted_of_walk {finding : Finding} {peer peer' : Peer} {outcome : Option Outcome}
    (walk : peer.WalkStep finding exchanges peer' outcome) : Granted exchanges := by
  refine granted_of_kinds fun x hx => ?_
  rcases walk.request_kind hx with hkind | hkind <;> simp [hkind]

/-- A finding drops no connection. -/
theorem kept_of_walk {finding : Finding} {peer peer' : Peer} {outcome : Option Outcome}
    (known : link.peers.find? conn = some peer)
    (walk : peer.WalkStep finding exchanges peer' outcome) (other : ConnHandle)
    (hother : (link.peers.find? other).isSome) :
    ((link.refreshed peer').peers.find? other).isSome :=
  (isSome_find?_refreshed peer' (find?_of_walk known walk).2 other).trans hother

/-- Registering a connection that came up is no loss. -/
theorem not_loss_admitted {address : Address} {status : Status} {peers : Registry} {stage : Stage}
    (success : status.IsSuccess) (added : link.peers.add conn address = .ok peers)
    (granted : Granted exchanges) :
    ¬ Loss link (Call.event (.linkEstablished conn address status)).event? exchanges
      { link.admitted peers conn address with stage } := by
  refine not_loss ?_ granted (by simp [Call.event?, Event.disconnected?]) fun other held => ?_
  · rintro other address' status' ⟨⟩
    exact success
  · change (peers.find? other).isSome
    rw [Registry.find?_of_add added]
    by_cases hother : other = conn
    · rw [if_pos hother]
      rfl
    · rw [if_neg hother]
      rcases held with known | ⟨established, -⟩
      · exact known
      · rw [Call.established_of_success success] at established
        exact absurd (Option.some.inj established).symm hother

/-- The turns about the scanner lose a camera only when it cannot be reached. -/
theorem ScanStep.ending (step : ScanStep link call exchanges link' response) :
    Ending link call.event? exchanges link' response := by
  cases step with
  | startDeferred busy | startRunning free running | stopIdle stopped =>
    exact .of_plain trivial granted_nil (fun _ => id) (by simp) rfl
  | startAccepted free stopped | startRefused free stopped why | stopAccepted running
  | stopRefused running why =>
    exact .of_plain trivial (granted_of_kinds (by simp [Request.kind])) (fun _ => id) (by simp) rfl
  | reportIgnored report h | scanComplete reason | restartDeferred busy | restartPointless free h =>
    exact .of_plain trivial granted_nil (fun _ => id) (by simp) rfl
  | reportKept report running free isCamera why | restartAccepted free wanted stopped
  | restartRefused free wanted stopped why =>
    exact .of_plain trivial (granted_of_kinds (by simp [Request.kind])) (fun _ => id) (by simp) rfl
  | connectAccepted report running free isCamera =>
    exact .of_plain trivial (by simp [Granted]) (fun _ => id) (by simp) rfl
  | connectRefused report running free isCamera why =>
    exact .lost (.refused report.address Settings.connectTimeoutMs why (by simp))
  | connectFailed conn address status failure =>
    exact .lost (.failed conn address status rfl failure)

/-- **Every turn ends with a loss and the reaction of the scanner to it, or without a loss.** -/
theorem Step.ending (step : Step link call exchanges link' response) (homed : link.Homed) :
    Ending link call.event? exchanges link' response := by
  cases step with
  | scan step => exact step.ending
  | ignored event ignores =>
    have plain : event.IsPlain := by cases event <;> trivial
    exact .of_plain plain granted_nil (fun _ => id) (by simp) rfl
  | writeDenied payload why denied =>
    exact .of_plain trivial granted_nil (fun _ => id) (by simp) rfl
  | written payload conn handle _ _ _ _ answer =>
    exact .of_plain trivial (granted_of_kinds (by simp [Request.kind])) (fun _ => id) (by simp) rfl
  | unregistered conn address status success why full down =>
    have reached : ∀ other address' status', (Call.event
        (.linkEstablished conn address status)).event? =
          some (.linkEstablished other address' status') → status'.IsSuccess := by
      rintro other address' status' ⟨⟩
      exact success
    have held : ∀ other, link.Holds (Call.event (.linkEstablished conn address status)).event?
        other → (link.peers.find? other).isSome := by
      rintro other (known | ⟨established, hroom⟩)
      · exact known
      · rw [Call.established_of_success success] at established
        obtain rfl := Option.some.inj established
        exact absurd hroom (not_holds_of_full full)
    cases down with
    | accepted =>
      exact .kept (not_loss reached (by simp [Granted]) (by simp [Call.event?, Event.disconnected?])
        held) _ (by simp) id
    | refused why' =>
      exact ending_dropLink homed (.inr ⟨why', List.mem_singleton.2 rfl⟩) held reached
        (by simp [Request.kind])
  | securing conn address status success peers added =>
    refine .kept (not_loss_admitted success added ?_) _ (by simp) fun _ => rfl
    exact granted_of_kinds (by simp [Request.kind])
  | insecure conn address status success peers added why down =>
    have known : ((link.admitted peers conn address).peers.find? conn).isSome := by
      change (peers.find? conn).isSome
      rw [Registry.find?_of_add added, if_pos rfl]
      rfl
    obtain ⟨unknown, room, -⟩ := Registry.add_eq_ok_iff.1 added
    have held : link.Holds (Call.event (.linkEstablished conn address status)).event? conn :=
      .inr ⟨Call.established_of_success success conn address, unknown, room⟩
    have asked : Granted [⟨.secure conn, .refused why⟩] := granted_of_kinds (by simp [Request.kind])
    exact down.ending known held
      (fun _ granted => not_loss_admitted success added (asked.append granted)) fun _ => rfl
  | unencrypted conn status failed peer known down =>
    have plain : (Call.event (.encryptionChange conn status)).IsPlain := trivial
    exact down.ending_of_plain plain granted_nil (Option.isSome_of_eq_some known) (fun _ => id) rfl
  | walkRunning conn status success peer known running =>
    obtain rfl := Registry.conn_of_find?_eq_some known
    exact .of_plain trivial granted_nil
      (fun other hother => by rwa [isSome_find?_refreshed peer known]) (by simp) rfl
  | walkStarted conn status success peer known halted =>
    obtain rfl := Registry.conn_of_find?_eq_some known
    let restarted : Peer := { peer with services := [], progress := .services }
    have stays : ∀ other, (link.peers.find? other).isSome →
        ((link.refreshed restarted).peers.find? other).isSome := fun other hother =>
      (isSome_find?_refreshed restarted known other).trans hother
    exact .of_plain trivial (granted_of_kinds (by simp [Request.kind])) stays (by simp) rfl
  | walkRefused conn status success peer known halted why down =>
    obtain rfl := Registry.conn_of_find?_eq_some known
    let restarted : Peer := { peer with services := [], progress := .failed }
    have plain : (Call.event (.encryptionChange peer.conn status)).IsPlain := trivial
    have asked : Granted [⟨.discoverServices peer.conn, .refused why⟩] :=
      granted_of_kinds (by simp [Request.kind])
    exact down.ending_of_plain plain asked (Option.isSome_of_eq_some known)
      (fun other hother => (isSome_find?_refreshed restarted known other).trans hother) rfl
  | disconnect conn reason =>
    refine ending_dropLink homed (.inl rfl) ?_ (by simp [Call.event?]) (by simp)
    rintro other (known | ⟨established, -⟩)
    · exact known
    · simp [Call.event?, Event.established?] at established
  | pairingIgnored conn unknown => exact .of_plain trivial granted_nil (fun _ => id) (by simp) rfl
  | pairingRetried conn peer known answer =>
    exact .of_plain trivial (granted_of_kinds (by simp [Request.kind])) (fun _ => id) (by simp) rfl
  | walkGoesOn conn finding peer peer' known exchanges walk =>
    exact .of_plain trivial (granted_of_walk walk) (kept_of_walk known walk) (by simp) rfl
  | walkComplete conn finding peer peer' known exchanges writes walk count subscription =>
    refine .of_plain trivial ((granted_of_walk walk).append (granted_of_kinds fun x hx => ?_)) ?_
      (by simp) (conn_subscribed _ peer')
    · obtain ⟨handle, data, hwrite⟩ := Peer.subscribeAll_request subscription x hx
      simp [hwrite, Request.kind]
    · rw [peers_subscribed]
      exact kept_of_walk known walk
  | walkFailed conn finding peer peer' known exchanges why walk down =>
    have plain : (Call.event (.discovery conn finding)).IsPlain := trivial
    exact down.ending_of_plain plain (granted_of_walk walk) (Option.isSome_of_eq_some known)
      (kept_of_walk known walk) rfl

/-! ## Restarts -/

variable {params : ScanParams} {history : List Turn} {turn : Turn}

/-- **When scanning comes back.**  In every run of a new link, a turn announces a restart exactly if
a camera is lost or cannot be reached in it, a scan was asked for last, and no scan is running
afterwards.  So when a camera was connected before a turn and is not any more, a restart is
announced, unless scanning was stopped last, or neither a scan nor its end was ever asked for, or a
scan is running. -/
theorem Run.restart_iff (run : Run (new { params }) (history ++ [turn]) link) :
    (turn.response = .reaction (.restartScanAfter Settings.scanRestartDelayMs) ↔
      turn.Loses ∧ Wants (history ++ [turn]) ∧ ¬ turn.after.scanner.running) ∧
    (turn.before.camera.IsConnected → ¬ turn.after.camera.IsConnected →
      turn.response = .reaction (.restartScanAfter Settings.scanRestartDelayMs) ∨
        Declines (history ++ [turn]) ∨ Unasked (history ++ [turn]) ∨
          turn.after.scanner.running) := by
  have wanted : turn.after.scanner.wanted ↔ Wants (history ++ [turn]) := by
    obtain ⟨-, rfl⟩ := run_concat_iff.1 run
    exact run.wanted_iff
  have homed : turn.before.Homed := (run_concat_iff.1 run).1.homed
  have ending := turn.step.ending homed
  rw [Call.event?_direct] at ending
  generalize turn.response = response at ending
  cases ending with
  | lost loss =>
    have hrestart : Response.reaction turn.after.scanner.restartReaction =
        .reaction (.restartScanAfter Settings.scanRestartDelayMs) ↔
          Wants (history ++ [turn]) ∧ ¬ turn.after.scanner.running := by
      rw [← wanted, ← Scanner.restartReaction_eq_iff]
      exact ⟨Response.reaction.inj, congrArg Response.reaction⟩
    refine ⟨hrestart.trans (by simp [Turn.Loses, loss]), fun _ _ => ?_⟩
    by_cases running : turn.after.scanner.running
    · exact .inr (.inr (.inr running))
    by_cases hwants : Wants (history ++ [turn])
    · exact .inl (hrestart.2 ⟨hwants, running⟩)
    · rcases declines_or_unasked _ hwants with declined | unasked
      · exact .inr (.inl declined)
      · exact .inr (.inr (.inl unasked))
  | kept whole response unannounced camera =>
    refine ⟨⟨fun h => absurd h (unannounced _), fun h => absurd h.1 whole⟩, ?_⟩
    exact fun connected unconnected => absurd (camera connected) unconnected

/-- The camera found by the search comes up and is lost again: scanning comes back. -/
theorem restart_after_search :
    let calls := search ++ [(Call.event (.linkEstablished 5 sampleAddress .success), ({} : Script))]
    let history := playback (new {}) calls
    let turn := Turn.against Script.reply {} (after (new {}) calls) (.event (.disconnect 5 ⟨8⟩))
    Run (new {}) (history ++ [turn]) turn.after ∧ turn.Loses ∧ Wants (history ++ [turn]) ∧
      turn.response = .reaction (.restartScanAfter 1000) := by
  intro calls history turn
  have run : Run (new {}) (history ++ [turn]) turn.after :=
    run_concat_iff.2 ⟨run_playback (new {}) calls, rfl⟩
  have loses : turn.Loses := .removed 5 (.inl (by decide)) (by decide)
  have wants : Wants (history ++ [turn]) := by decide
  obtain ⟨hrestart, -⟩ := Run.restart_iff run
  exact ⟨run, loses, wants, hrestart.2 ⟨loses, wants, by decide⟩⟩

/-- A camera that comes up and is lost again while nobody ever asked for a scan or stopped one does
not bring scanning back, although no scan is running. -/
theorem lost_unasked :
    let history := playback (new {}) [(.event (.linkEstablished 5 sampleAddress .success), {})]
    let turn := Turn.against Script.reply {}
      (after (new {}) [(.event (.linkEstablished 5 sampleAddress .success), {})])
      (.event (.disconnect 5 ⟨8⟩))
    Run (new {}) (history ++ [turn]) turn.after ∧ turn.before.camera.IsConnected ∧
      ¬ turn.after.camera.IsConnected ∧ turn.response = .reaction .nothing ∧
        ¬ Declines (history ++ [turn]) ∧ ¬ turn.after.scanner.running := by
  intro history turn
  have run : Run (new {}) (history ++ [turn]) turn.after :=
    run_concat_iff.2 ⟨run_playback (new {}) _, rfl⟩
  exact ⟨run, by decide, by decide, rfl, by decide, by decide⟩

end Link

end CameraCentral
