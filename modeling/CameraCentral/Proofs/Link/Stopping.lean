import CameraCentral.Proofs.Link.Change

/-!
# After an explicit stop

A stop is final until the next explicit start.  What comes back by itself comes back through
`Scanner.wanted`: only while a scan is wanted are restarts announced, and carried out when they fall
due.  A stop clears it, whether the host could break the scan off or not, and nothing but a start
sets it again.

If the scan was broken off, or none was running, then the radio has nothing to do with looking for
cameras any more: no scan is started, none is left to be broken off, and devices are connected to
only from a running scan.
-/

namespace CameraCentral

/-- The requests by which cameras are looked for. -/
def Request.IsSearch (request : Request) : Prop :=
  request.kind ∈ [.startScan, .cancelScan, .connect]

instance (request : Request) : Decidable request.IsSearch :=
  inferInstanceAs (Decidable (request.kind ∈ [.startScan, .cancelScan, .connect]))

/-- Requests about a connection are about one that there is. -/
theorem Request.not_isSearch_of_conn {request : Request} {conn : ConnHandle}
    (h : request.conn? = some conn) : ¬ request.IsSearch := by
  intro search
  simp only [IsSearch, List.mem_cons, List.not_mem_nil, or_false] at search
  cases request with
  | startScan _ | cancelScan | connect _ _ => cases h
  | _ => simp [kind] at search

namespace Link

variable {link link' : Link} {call : Call} {exchanges : List Exchange} {response : Response}
  {conn : ConnHandle} {reaction : Reaction}

/-! ## Requests that have nothing to do with looking for cameras -/

/-- None of these requests is there to look for cameras. -/
def Aside (exchanges : List Exchange) : Prop := ∀ x ∈ exchanges, ¬ x.request.IsSearch

theorem aside_nil : Aside [] := by
  intro x hx
  cases hx

/-- A request about a connection is not there to look for cameras. -/
theorem aside_singleton {x : Exchange} (hconn : x.request.conn? = some conn) : Aside [x] := by
  intro y hy
  obtain rfl := List.mem_singleton.1 hy
  exact Request.not_isSearch_of_conn hconn

theorem Aside.append {later : List Exchange} (first : Aside exchanges) (second : Aside later) :
    Aside (exchanges ++ later) := by
  intro x hx
  rcases List.mem_append.1 hx with hx | hx
  · exact first x hx
  · exact second x hx

/-- Dropping a connection is not there to look for cameras. -/
theorem Terminates.aside (down : link.Terminates conn exchanges link' reaction) :
    Aside exchanges := by
  intro x hx
  rw [down.request_eq hx]
  exact Request.not_isSearch_of_conn rfl

/-- What a walk asks for is not there to look for cameras. -/
theorem aside_of_walk {finding : Finding} {peer peer' : Peer} {outcome : Option Outcome}
    (walk : peer.WalkStep finding exchanges peer' outcome) : Aside exchanges := by
  intro x hx
  obtain ⟨-, hconn⟩ := walk.request_conn hx
  exact Request.not_isSearch_of_conn hconn

/-- Subscribing is not there to look for cameras. -/
theorem aside_of_subscription {peer : Peer} {count : SubscriptionCount}
    (subscription : peer.subscribeAll.Yields exchanges count) : Aside exchanges := by
  intro x hx
  obtain ⟨handle, data, hrequest⟩ := Peer.subscribeAll_request subscription x hx
  rw [hrequest]
  exact Request.not_isSearch_of_conn rfl

/-! ## Turns that are not about the scanner -/

/-- Subscribing leaves the scanner alone. -/
@[simp] theorem scanner_subscribed (link : Link) (peer : Peer) :
    (link.subscribed peer).scanner = link.scanner := by
  unfold subscribed
  split <;> rfl

/-- Asking the host to drop a connection leaves the scanner alone. -/
theorem Terminates.scanner_eq (down : link.Terminates conn exchanges link' reaction) :
    link'.scanner = link.scanner := by
  cases down with
  | accepted => rfl
  | refused why => exact scanner_dropLink link conn

/-- Losing a connection announces no restart while no scan is wanted. -/
theorem dropLink_of_unwanted (unwanted : ¬ link.scanner.wanted) (conn : ConnHandle) :
    (link.dropLink conn).2 = .nothing := by
  unfold dropLink
  split
  · exact Scanner.restartReaction_of_unwanted unwanted
  · rfl

/-- Asking the host to drop a connection announces no restart while no scan is wanted. -/
theorem Terminates.eq_nothing (down : link.Terminates conn exchanges link' reaction)
    (unwanted : ¬ link.scanner.wanted) : reaction = .nothing := by
  cases down with
  | accepted => rfl
  | refused why => exact dropLink_of_unwanted unwanted conn

/-- A turn that has nothing to do with looking for cameras: it leaves the scanner as it is and asks
for nothing that is there to look for cameras, and no scan is started, stopped or reported to be
over in it.  It may lose a connection, but announces no restart then unless a scan is wanted. -/
structure Elsewhere (link : Link) (call : Call) (exchanges : List Exchange) (link' : Link)
    (response : Response) : Prop where
  scanner : link'.scanner = link.scanner
  aside : Aside exchanges
  unstarted : call ≠ .startScan
  unstopped : call ≠ .stopScan
  ongoing : ∀ reason, call ≠ .event (.scanComplete reason)
  unannounced : ¬ link.scanner.wanted → ∀ delayMs, response ≠ .reaction (.restartScanAfter delayMs)

/-- A turn whose event is about a connection is not about the scanner. -/
theorem Elsewhere.of_event {event : Event} (about : event.conn?.isSome)
    (scanner : link'.scanner = link.scanner) (aside : Aside exchanges)
    (unannounced : ¬ link.scanner.wanted → ∀ delayMs, reaction ≠ .restartScanAfter delayMs) :
    link.Elsewhere (.event event) exchanges link' (.reaction reaction) where
  scanner := scanner
  aside := aside
  unstarted := nofun
  unstopped := nofun
  ongoing reason h := by
    cases h
    cases about
  unannounced unwanted delayMs h := unannounced unwanted delayMs (Response.reaction.inj h)

/-- Writing to the camera is not about the scanner. -/
theorem Elsewhere.of_write {payload : Bytes} {result : Except Fault Unit}
    (aside : Aside exchanges) :
    link.Elsewhere (.write payload) exchanges link (.result result) where
  scanner := rfl
  aside := aside
  unstarted := by simp
  unstopped := by simp
  ongoing := by simp
  unannounced := by simp

/-- A turn that ends with asking the host to drop a connection is not about the scanner. -/
theorem Terminates.elsewhere {event : Event} {middle : Link} {asked : List Exchange}
    (down : middle.Terminates conn exchanges link' reaction) (about : event.conn?.isSome)
    (scanner : middle.scanner = link.scanner) (aside : Aside asked) :
    link.Elsewhere (.event event) (asked ++ exchanges) link' (.reaction reaction) := by
  refine .of_event about (down.scanner_eq.trans scanner) (aside.append down.aside) ?_
  rintro unwanted delayMs rfl
  cases down.eq_nothing (scanner ▸ unwanted)

/-- **Every turn is one about the scanner, or has nothing to do with looking for cameras.** -/
theorem Step.scan_or_elsewhere (step : Step link call exchanges link' response) :
    ScanStep link call exchanges link' response ∨
      link.Elsewhere call exchanges link' response := by
  cases step with
  | scan step => exact .inl step
  | ignored event ignores =>
    have about : event.conn?.isSome := by cases event <;> first | rfl | exact ignores.elim
    exact .inr (.of_event about rfl aside_nil (by simp))
  | writeDenied payload why denied => exact .inr (.of_write aside_nil)
  | written payload conn handle _ _ _ _ answer => exact .inr (.of_write (aside_singleton rfl))
  | unregistered conn address status success why full down =>
    exact .inr (down.elsewhere rfl rfl aside_nil)
  | securing conn address status success peers added =>
    exact .inr (.of_event rfl rfl (aside_singleton rfl) (by simp))
  | insecure conn address status success peers added why down =>
    have asked : Aside [⟨.secure conn, .refused why⟩] := aside_singleton rfl
    have scanner : (link.admitted peers conn address).scanner = link.scanner := rfl
    exact .inr (down.elsewhere rfl scanner asked)
  | unencrypted conn status failed peer known down =>
    exact .inr (down.elsewhere rfl rfl aside_nil)
  | walkRunning conn status success peer known running =>
    exact .inr (.of_event rfl rfl aside_nil (by simp))
  | walkStarted conn status success peer known halted =>
    exact .inr (.of_event rfl rfl (aside_singleton rfl) (by simp))
  | walkRefused conn status success peer known halted why down =>
    have asked : Aside [⟨.discoverServices conn, .refused why⟩] := aside_singleton rfl
    have scanner : (link.refreshed { peer with services := [], progress := .failed }).scanner =
        link.scanner := rfl
    exact .inr (down.elsewhere rfl scanner asked)
  | disconnect conn reason =>
    refine .inr (.of_event rfl (scanner_dropLink link conn) aside_nil ?_)
    rintro unwanted delayMs heq
    rw [dropLink_of_unwanted unwanted] at heq
    cases heq
  | pairingIgnored conn unknown => exact .inr (.of_event rfl rfl aside_nil (by simp))
  | pairingRetried conn peer known answer =>
    have aside : Aside [⟨.forgetBond peer.address, answer⟩] := by
      simp [Aside, Request.IsSearch, Request.kind]
    exact .inr (.of_event rfl rfl aside (by simp))
  | walkGoesOn conn finding peer peer' known exchanges walk =>
    exact .inr (.of_event rfl rfl (aside_of_walk walk) (by simp))
  | walkComplete conn finding peer peer' known exchanges writes walk count subscription =>
    have aside : Aside (exchanges ++ writes) :=
      (aside_of_walk walk).append (aside_of_subscription subscription)
    exact .inr (.of_event rfl (scanner_subscribed _ peer') aside (by simp))
  | walkFailed conn finding peer peer' known exchanges why walk down =>
    exact .inr (down.elsewhere rfl rfl (aside_of_walk walk))

/-! ## Turns while no scan is wanted -/

/-- No scan is started, none is announced, and none is wanted afterwards.  If none is running
either, this stays so, and nothing is asked for to look for cameras. -/
structure Rests (link : Link) (exchanges : List Exchange) (link' : Link) (response : Response) :
    Prop where
  unwanted : ¬ link'.scanner.wanted
  unasked : ∀ x ∈ exchanges, x.request.kind ≠ .startScan
  unannounced : ∀ delayMs, response ≠ .reaction (.restartScanAfter delayMs)
  stopped : ¬ link.scanner.running → ¬ link'.scanner.running ∧ Aside exchanges

/-- A turn that does not look for cameras and leaves the scanner alone. -/
theorem Rests.of_aside (unwanted : ¬ link.scanner.wanted) (scanner : link'.scanner = link.scanner)
    (aside : Aside exchanges)
    (unannounced : ∀ delayMs, response ≠ .reaction (.restartScanAfter delayMs)) :
    link.Rests exchanges link' response where
  unwanted := scanner ▸ unwanted
  unasked x hx hkind := by
    have search : x.request.IsSearch := by
      rw [Request.IsSearch, hkind]
      exact List.mem_cons_self
    exact aside x hx search
  unannounced := unannounced
  stopped running := ⟨scanner ▸ running, aside⟩

/-- A turn that finds a scan running has nothing to say about what happens when none is. -/
theorem Rests.of_running (running : link.scanner.running) (unwanted : ¬ link'.scanner.wanted)
    (unasked : ∀ x ∈ exchanges, x.request.kind ≠ .startScan)
    (unannounced : ∀ delayMs, response ≠ .reaction (.restartScanAfter delayMs)) :
    link.Rests exchanges link' response where
  unwanted := unwanted
  unasked := unasked
  unannounced := unannounced
  stopped halted := absurd running halted

/-- The turns about the scanner while no scan is wanted. -/
theorem ScanStep.rests (step : ScanStep link call exchanges link' response)
    (unwanted : ¬ link.scanner.wanted) (unstarted : call ≠ .startScan) :
    link.Rests exchanges link' response := by
  cases step with
  | startDeferred _ | startRunning _ _ | startAccepted _ _ | startRefused _ _ _ =>
    exact absurd rfl unstarted
  | stopIdle stopped =>
    exact ⟨Bool.false_ne_true, by simp, by simp, fun running => ⟨running, aside_nil⟩⟩
  | stopAccepted running | stopRefused running why =>
    exact .of_running running Bool.false_ne_true (by simp [Request.kind]) (by simp)
  | reportIgnored report ignored => exact .of_aside unwanted rfl aside_nil (by simp)
  | reportKept report running free isCamera why =>
    have hunwanted : ¬ (link.scanner.record report).1.wanted := by rwa [Scanner.wanted_record]
    exact .of_running running hunwanted (by simp [Request.kind]) (by simp)
  | connectAccepted report running free isCamera =>
    have hunwanted : ¬ (link.scanner.record report).1.wanted := by rwa [Scanner.wanted_record]
    exact .of_running running hunwanted (by simp [Request.kind]) (by simp)
  | connectRefused report running free isCamera why =>
    have hunwanted : ¬ { (link.scanner.record report).1 with running := false }.wanted := by
      rwa [Scanner.wanted_record]
    rw [Scanner.restartReaction_of_unwanted hunwanted]
    exact .of_running running hunwanted (by simp [Request.kind]) (by simp)
  | scanComplete reason =>
    exact ⟨unwanted, by simp, by simp, fun _ => ⟨Bool.false_ne_true, aside_nil⟩⟩
  | connectFailed conn address status failed =>
    rw [Scanner.restartReaction_of_unwanted unwanted]
    exact .of_aside unwanted rfl aside_nil (by simp)
  | restartDeferred busy => exact .of_aside unwanted rfl aside_nil (by simp)
  | restartPointless free pointless => exact .of_aside unwanted rfl aside_nil (by simp)
  | restartAccepted free wanted stopped => exact absurd wanted unwanted
  | restartRefused free wanted stopped why => exact absurd wanted unwanted

/-- **While no scan is wanted, nothing but a start makes one wanted**, and nothing else begins to
look for cameras. -/
theorem Step.rests (step : Step link call exchanges link' response)
    (unwanted : ¬ link.scanner.wanted) (unstarted : call ≠ .startScan) :
    link.Rests exchanges link' response := by
  rcases step.scan_or_elsewhere with scan | elsewhere
  · exact scan.rests unwanted unstarted
  · exact .of_aside unwanted elsewhere.scanner elsewhere.aside (elsewhere.unannounced unwanted)

/-- After a stop no scan is wanted, and if the stop was carried out, none is running. -/
theorem Step.stopped (step : Step link .stopScan exchanges link' response) :
    ¬ link'.scanner.wanted ∧ (response = .result (.ok ()) → ¬ link'.scanner.running) := by
  cases step with
  | scan step =>
    cases step with
    | stopIdle stopped => exact ⟨Bool.false_ne_true, fun _ => stopped⟩
    | stopAccepted running => exact ⟨Bool.false_ne_true, fun _ => Bool.false_ne_true⟩
    | stopRefused running why => exact ⟨Bool.false_ne_true, by simp⟩

/-! ## Runs after a stop -/

variable {history : List Turn} {stop : Turn}

/-- While there is no start, a run without a scan being wanted goes on without one. -/
theorem Run.rests {start : Link} (run : Run start history link)
    (unwanted : ¬ start.scanner.wanted)
    (unstarted : ∀ turn ∈ history, turn.call.direct ≠ .startScan) :
    ∀ turn ∈ history, turn.before.Rests turn.exchanges turn.after turn.response := by
  obtain ⟨hunwanted, -⟩ := Run.forward (p := fun state => ¬ state.scanner.wanted) run unwanted
    fun turn hturn hbefore => (turn.step.rests hbefore (unstarted turn hturn)).unwanted
  exact fun turn hturn => turn.step.rests (hunwanted turn hturn) (unstarted turn hturn)

/-- While there is no start, a run in which a scan is neither wanted nor running does not look for
cameras at all. -/
theorem Run.aside {start : Link} (run : Run start history link)
    (unwanted : ¬ start.scanner.wanted) (stopped : ¬ start.scanner.running)
    (unstarted : ∀ turn ∈ history, turn.call.direct ≠ .startScan) :
    ∀ turn ∈ history, ¬ turn.after.scanner.running ∧ Aside turn.exchanges := by
  have rests := run.rests unwanted unstarted
  obtain ⟨hstopped, -⟩ := Run.forward (p := fun state => ¬ state.scanner.running) run stopped
    fun turn hturn hbefore => ((rests turn hturn).stopped hbefore).1
  exact fun turn hturn => (rests turn hturn).stopped (hstopped turn hturn)

/-- **A stop is final until the next start.**  Let a stop be followed by turns of which none is a
start.  Then no scan is started in them, and no restart is announced.  If the stop was carried out,
then no scan is running in them either, and nothing is asked for to look for cameras: no scan is
broken off, and no connection is made. -/
theorem Run.stop_final (stops : stop.call.direct = .stopScan) (run : Run stop.after history link)
    (unstarted : ∀ turn ∈ history, turn.call.direct ≠ .startScan) :
    (∀ turn ∈ history, (∀ x ∈ turn.exchanges, x.request.kind ≠ .startScan) ∧
        ∀ delayMs, turn.response ≠ .reaction (.restartScanAfter delayMs)) ∧
      (stop.response = .result (.ok ()) → ¬ stop.after.scanner.running ∧
        ∀ turn ∈ history, ¬ turn.after.scanner.running ∧
          ∀ x ∈ turn.exchanges, ¬ x.request.IsSearch) := by
  have hstep := stop.step
  rw [stops] at hstep
  obtain ⟨unwanted, hcarried⟩ := hstep.stopped
  refine ⟨fun turn hturn => ?_, fun carried => ?_⟩
  · have rests := run.rests unwanted unstarted turn hturn
    exact ⟨rests.unasked, rests.unannounced⟩
  · have stopped : ¬ stop.after.scanner.running := hcarried carried
    exact ⟨stopped, run.aside unwanted stopped unstarted⟩

/-- A scan is stopped, and then a restart falls due that was announced before, and a connection
attempt fails. -/
theorem stopped_late_restart :
    let stop := Turn.against Script.reply {} (after (new {}) [(.startScan, {})]) .stopScan
    let history := playback stop.after [(.event .scanRestartDue, {}),
      (.event (.linkEstablished 5 sampleAddress ⟨1⟩), {})]
    stop.before.scanner.running ∧ ∀ turn ∈ history, ¬ turn.after.scanner.running ∧
      ∀ x ∈ turn.exchanges, ¬ x.request.IsSearch := by
  intro stop history
  have unstarted : ∀ turn ∈ history, turn.call.direct ≠ .startScan := by decide
  have run := run_playback stop.after [(.event .scanRestartDue, {}),
    (.event (.linkEstablished 5 sampleAddress ⟨1⟩), {})]
  obtain ⟨-, hstopped⟩ := Run.stop_final rfl run unstarted
  exact ⟨by decide, (hstopped rfl).2⟩

end Link

end CameraCentral
