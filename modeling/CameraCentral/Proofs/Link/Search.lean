import CameraCentral.Proofs.Link.Exclusion
import CameraCentral.Proofs.Link.Stopping

/-!
# The scan and the host

The host runs a scan from the moment it takes one on until it takes on to cancel it, or reports that
it is over.  That can be read off the log (`Scanning`), and the link does not have the log: it has
one bit, which is set and cleared in several handlers.  `Run.in_order` says that the bit is right in
every run, and what follows from it for the requests that the link makes: no scan is started while
one is running, none is cancelled unless one is running, and a device is connected to in one
situation only, right after the scan that found it was cancelled.
-/

namespace CameraCentral

namespace Link

/-! ## The scan according to the log -/

/-- The host took on to scan. -/
def Entry.StartsScan : Entry → Prop
  | told _ => False
  | asked x => x.request.kind = .startScan ∧ x.answer = .accepted

/-- The host took on to cancel the scan, or reported that it is over. -/
def Entry.EndsScan : Entry → Prop
  | told (.scanComplete _) => True
  | told _ => False
  | asked x => x.request.kind = .cancelScan ∧ x.answer = .accepted

instance : DecidablePred Entry.StartsScan
  | .told _ => .isFalse id
  | .asked x => inferInstanceAs (Decidable (x.request.kind = .startScan ∧ x.answer = .accepted))

instance : DecidablePred Entry.EndsScan
  | .told (.scanComplete _) => .isTrue trivial
  | .told (.advertisement _) | .told (.linkEstablished _ _ _) => .isFalse id
  | .told (.encryptionChange _ _) | .told (.disconnect _ _) => .isFalse id
  | .told (.repeatPairing _) | .told (.mtuChanged _ _) | .told (.discovery _ _) => .isFalse id
  | .told (.writeComplete _ _ _) | .told (.notification _ _ _ _) => .isFalse id
  | .told .scanRestartDue => .isFalse id
  | .asked x => inferInstanceAs (Decidable (x.request.kind = .cancelScan ∧ x.answer = .accepted))

/-- The host took on to scan, and the scan was not cancelled and is not over since. -/
def Scanning (entries : List Entry) : Prop :=
  Since (fun entry => ¬ entry.EndsScan) Entry.StartsScan entries

instance (entries : List Entry) : Decidable (Scanning entries) :=
  inferInstanceAs (Decidable (Since _ _ entries))

@[simp] theorem not_scanning_nil : ¬ Scanning [] := not_since_nil _ _

@[simp] theorem scanning_concat_iff {entries : List Entry} {entry : Entry} :
    Scanning (entries ++ [entry]) ↔ entry.StartsScan ∨ ¬ entry.EndsScan ∧ Scanning entries :=
  since_concat_iff

/-- A scan is running after two more entries if the last one says so, or the one before it and the
last one does not end it. -/
theorem scanning_append_pair_iff {entries : List Entry} {first second : Entry} :
    Scanning (entries ++ [first, second]) ↔
      second.StartsScan ∨ ¬ second.EndsScan ∧
        (first.StartsScan ∨ ¬ first.EndsScan ∧ Scanning entries) := by
  rw [List.append_cons, scanning_concat_iff, scanning_concat_iff]

/-! ## Requests in order -/

/-- A request that is made in order, in a turn of `link`, when `earlier` stands in the log of the
turn and `past` in the log before it.

A scan is started while none is running, no camera is connected and none is being connected to.  A
scan is cancelled while one is running.  And a device is connected to when it was reported to
advertise itself as a camera, at once after the scan was cancelled, and while no camera is connected
or being connected to. -/
structure InOrder (link : Link) (past earlier : List Entry) (x : Exchange) : Prop where
  start : x.request.kind = .startScan →
    ¬ Scanning (past ++ earlier) ∧ ¬ link.camera.IsConnected ∧ link.stage ≠ .connecting
  cancel : x.request.kind = .cancelScan → Scanning (past ++ earlier)
  connect : ∀ address timeoutMs, x.request = .connect address timeoutMs →
    ∃ report : Advert.Report, report.address = address ∧ report.IsCamera ∧
      earlier = [.told (.advertisement report), .asked ⟨.cancelScan, .accepted⟩] ∧
      ¬ Scanning (past ++ earlier) ∧ ¬ link.camera.IsConnected ∧ link.stage ≠ .connecting

/-- An entry of the log of a turn of `link` is in order if it is a report, or a request that is made
in order. -/
def Entry.InOrder (link : Link) (past earlier : List Entry) : Entry → Prop
  | told _ => True
  | asked x => link.InOrder past earlier x

/-- The requests of a turn are made in order, and at most one of them is to connect. -/
structure Turn.InOrder (turn : Turn) (past : List Entry) : Prop where
  requests : Throughout (Entry.InOrder turn.before past) turn.log
  once : turn.exchanges.countP (fun x => x.request.kind = .connect) ≤ 1

variable {link link' : Link} {call : Call} {exchanges : List Exchange} {response : Response}
  {past : List Entry}

/-- Requests that are not there to look for cameras are in order. -/
theorem InOrder.of_aside {earlier : List Entry} {x : Exchange} (h : ¬ x.request.IsSearch) :
    link.InOrder past earlier x where
  start hkind := absurd (by simp [Request.IsSearch, hkind]) h
  cancel hkind := absurd (by simp [Request.IsSearch, hkind]) h
  connect address timeoutMs hrequest := by
    refine absurd ?_ h
    simp [Request.IsSearch, hrequest, Request.kind]

/-- A scan that is started while nobody is connected and no scan is running is in order. -/
theorem InOrder.of_start {earlier : List Entry} {answer : Answer} {params : ScanParams}
    (stopped : ¬ Scanning (past ++ earlier)) (free : ¬ link.Busy) :
    link.InOrder past earlier ⟨.startScan params, answer⟩ where
  start _ := ⟨stopped, fun connected => free (.inl connected), fun stage => free (.inr stage)⟩
  cancel h := by cases h
  connect _ _ h := by cases h

/-- A scan that is cancelled while it is running is in order. -/
theorem InOrder.of_cancel {earlier : List Entry} {answer : Answer}
    (running : Scanning (past ++ earlier)) :
    link.InOrder past earlier ⟨.cancelScan, answer⟩ where
  start h := by cases h
  cancel _ := running
  connect _ _ h := by cases h

/-- A camera that is connected to after the scan that found it was cancelled is connected to in
order. -/
theorem InOrder.of_connect {report : Advert.Report} {timeoutMs : UInt32} {answer : Answer}
    (isCamera : report.IsCamera) (free : ¬ link.Busy) :
    link.InOrder past [.told (.advertisement report), .asked ⟨.cancelScan, .accepted⟩]
      ⟨.connect report.address timeoutMs, answer⟩ where
  start h := by cases h
  cancel h := by cases h
  connect address _ h := by
    cases h
    have stopped : ¬ Scanning (past ++
        [.told (.advertisement report), .asked ⟨.cancelScan, .accepted⟩]) := by
      rw [scanning_append_pair_iff]
      simp [Entry.StartsScan, Entry.EndsScan, Request.kind]
    exact ⟨report, rfl, isCamera, rfl, stopped, fun connected => free (.inl connected),
      fun stage => free (.inr stage)⟩

/-! ## What a turn means for the scan -/

/-- What a call and its requests add to the log. -/
def entries (call : Call) (exchanges : List Exchange) : List Entry :=
  (call.event?.map .told).toList ++ exchanges.map .asked

/-- A turn after which the link is right about the scan, with requests that are made in order. -/
structure Follows (link : Link) (past : List Entry) (call : Call) (exchanges : List Exchange)
    (link' : Link) : Prop where
  running : link'.scanner.running ↔ Scanning (past ++ entries call exchanges)
  requests : Throughout (Entry.InOrder link past) (entries call exchanges)
  once : exchanges.countP (fun x => x.request.kind = .connect) ≤ 1

/-- Entries that neither start a scan nor end one leave a scan running, or none. -/
theorem scanning_append_iff {later : List Entry}
    (h : ∀ entry ∈ later, ¬ entry.StartsScan ∧ ¬ entry.EndsScan) :
    Scanning (past ++ later) ↔ Scanning past :=
  since_append_iff h

/-- Reports other than the end of a scan, and requests that are not there to look for cameras,
neither start a scan nor end one. -/
theorem scanless_of_aside (ongoing : ∀ reason, call ≠ .event (.scanComplete reason))
    (aside : Aside exchanges) :
    ∀ entry ∈ entries call exchanges, ¬ entry.StartsScan ∧ ¬ entry.EndsScan := by
  intro entry hentry
  rcases List.mem_append.1 hentry with hentry | hentry
  · cases call with
    | event event =>
      obtain rfl : entry = .told event := by simpa [Call.event?] using hentry
      refine ⟨id, ?_⟩
      cases event with
      | scanComplete reason => exact absurd rfl (ongoing reason)
      | _ => exact id
    | startScan | stopScan | write payload | perform command => cases hentry
  · obtain ⟨x, hx, rfl⟩ := List.mem_map.1 hentry
    refine ⟨fun starts => aside x hx ?_, fun ends => aside x hx ?_⟩
    · simp [Request.IsSearch, starts.1]
    · simp [Request.IsSearch, ends.1]

/-- Turns that leave the bit of the scanner as it is and have nothing to do with looking for
cameras. -/
theorem Follows.of_aside (before : link.scanner.running ↔ Scanning past)
    (scanner : link'.scanner.running = link.scanner.running)
    (ongoing : ∀ reason, call ≠ .event (.scanComplete reason)) (aside : Aside exchanges) :
    link.Follows past call exchanges link' where
  running := by
    rw [scanner, before, scanning_append_iff (scanless_of_aside ongoing aside)]
  requests := by
    rintro earlier (event | x) later heq
    · trivial
    · have hmem : Entry.asked x ∈ entries call exchanges := by simp [heq]
      have hx : x ∈ exchanges := by simpa [entries] using hmem
      exact InOrder.of_aside (aside x hx)
  once := by
    have hnone : exchanges.countP (fun x => x.request.kind = .connect) = 0 := by
      refine List.countP_eq_zero.2 fun x hx => ?_
      have hsearch : x.request.kind ≠ .connect := fun hkind =>
        aside x hx (by simp [Request.IsSearch, hkind])
      simpa using hsearch
    rw [hnone]
    exact Nat.zero_le 1

/-- Turns with one request, which is in order when what the log of the turn has before it says
nothing about the scan, and after which the bit of the scanner is what the answer says. -/
theorem Follows.of_single {x : Exchange} (before : link.scanner.running ↔ Scanning past)
    (ongoing : ∀ reason, call ≠ .event (.scanComplete reason))
    (inOrder : ∀ earlier, (Scanning (past ++ earlier) ↔ Scanning past) →
      link.InOrder past earlier x)
    (after : link'.scanner.running ↔ (Entry.asked x).StartsScan ∨
      ¬ (Entry.asked x).EndsScan ∧ link.scanner.running) :
    link.Follows past call [x] link' := by
  have hentries : entries call [x] = entries call [] ++ [.asked x] := by simp [entries]
  have hfirst : Scanning (past ++ entries call []) ↔ Scanning past :=
    scanning_append_iff (scanless_of_aside ongoing aside_nil)
  refine ⟨?_, ?_, List.countP_le_length⟩
  · rw [after, before, hentries, ← List.append_assoc, scanning_concat_iff, hfirst]
  · rw [hentries]
    have hsilent : link.Follows past call [] link := .of_aside before rfl ongoing aside_nil
    exact throughout_concat_iff.2 ⟨hsilent.requests, inOrder _ hfirst⟩

/-- Turns that ask for a scan while nobody is connected and no scan is running. -/
theorem Follows.of_start {params : ScanParams} {answer : Answer}
    (before : link.scanner.running ↔ Scanning past) (free : ¬ link.Busy)
    (stopped : ¬ link.scanner.running)
    (ongoing : ∀ reason, call ≠ .event (.scanComplete reason))
    (after : link'.scanner.running ↔ answer = .accepted) :
    link.Follows past call [⟨.startScan params, answer⟩] link' := by
  refine .of_single before ongoing (fun earlier hearlier => ?_) ?_
  · exact .of_start (by rwa [hearlier, ← before]) free
  · simp [after, stopped, Entry.StartsScan, Request.kind]

/-- Turns that ask for a running scan to be cancelled. -/
theorem Follows.of_cancel {answer : Answer}
    (before : link.scanner.running ↔ Scanning past) (running : link.scanner.running)
    (ongoing : ∀ reason, call ≠ .event (.scanComplete reason))
    (after : link'.scanner.running ↔ answer ≠ .accepted) :
    link.Follows past call [⟨.cancelScan, answer⟩] link' := by
  refine .of_single before ongoing (fun earlier hearlier => ?_) ?_
  · exact .of_cancel (by rwa [hearlier, ← before])
  · simp [after, running, Entry.StartsScan, Entry.EndsScan, Request.kind]

/-- Turns in which a running scan is cancelled to connect to the camera that it found. -/
theorem Follows.of_connect {report : Advert.Report} {answer : Answer}
    (before : link.scanner.running ↔ Scanning past) (running : link.scanner.running)
    (isCamera : report.IsCamera) (free : ¬ link.Busy) (after : ¬ link'.scanner.running) :
    link.Follows past (.event (.advertisement report)) [⟨.cancelScan, .accepted⟩,
      ⟨.connect report.address Settings.connectTimeoutMs, answer⟩] link' where
  running := by
    have hstopped : ¬ Scanning (past ++ [.told (.advertisement report)] ++
        [.asked ⟨.cancelScan, .accepted⟩, .asked ⟨.connect report.address
          Settings.connectTimeoutMs, answer⟩]) := by
      rw [scanning_append_pair_iff]
      simp [Entry.StartsScan, Entry.EndsScan, Request.kind]
    rw [List.append_assoc] at hstopped
    exact iff_of_false after hstopped
  requests := by
    have hfound : Scanning (past ++ [.told (.advertisement report)]) := by
      rw [scanning_concat_iff]
      exact .inr ⟨id, before.1 running⟩
    refine throughout_cons_iff.2 ⟨trivial, throughout_cons_iff.2 ⟨?_, ?_⟩⟩
    · exact InOrder.of_cancel hfound
    · exact throughout_cons_iff.2 ⟨InOrder.of_connect isCamera free, throughout_nil _⟩
  once := by simp [Request.kind]

/-- The turns about the scanner follow the log. -/
theorem ScanStep.follows (step : ScanStep link call exchanges link' response)
    (before : link.scanner.running ↔ Scanning past) :
    link.Follows past call exchanges link' := by
  cases step with
  | startDeferred busy => exact .of_aside before rfl (by simp) aside_nil
  | startRunning free running => exact .of_aside before rfl (by simp) aside_nil
  | startAccepted free stopped =>
    exact .of_start before free stopped (by simp) (by simp [searching])
  | startRefused free stopped why =>
    exact .of_start before free stopped (by simp) (by simp [stopped])
  | stopIdle stopped => exact .of_aside before rfl (by simp) aside_nil
  | stopAccepted running => exact .of_cancel before running (by simp) (by simp [resting])
  | stopRefused running why => exact .of_cancel before running (by simp) (by simp [running])
  | reportIgnored report ignored => exact .of_aside before rfl (by simp) aside_nil
  | reportKept report running free isCamera why =>
    exact .of_cancel before running (by simp) (by simp [running])
  | connectAccepted report running free isCamera =>
    exact .of_connect before running isCamera free (by simp)
  | connectRefused report running free isCamera why =>
    exact .of_connect before running isCamera free (by simp)
  | scanComplete reason =>
    have hover : ¬ Scanning (past ++ [.told (.scanComplete reason)]) := by
      simp [Entry.StartsScan, Entry.EndsScan]
    refine ⟨iff_of_false (by simp [resting, Scanner.complete]) hover, ?_, Nat.zero_le 1⟩
    exact throughout_cons_iff.2 ⟨trivial, throughout_nil _⟩
  | connectFailed conn address status failed => exact .of_aside before rfl (by simp) aside_nil
  | restartDeferred busy => exact .of_aside before rfl (by simp) aside_nil
  | restartPointless free pointless => exact .of_aside before rfl (by simp) aside_nil
  | restartAccepted free wanted stopped => exact .of_start before free stopped (by simp) (by simp)
  | restartRefused free wanted stopped why =>
    exact .of_start before free stopped (by simp) (by simp [stopped])

/-- **A turn follows the log**: if the link is right about the scan before it, its requests are in
order, and the link is right about the scan after it. -/
theorem Step.follows (step : Step link call exchanges link' response)
    (before : link.scanner.running ↔ Scanning past) :
    link.Follows past call exchanges link' := by
  rcases step.scan_or_elsewhere with scan | elsewhere
  · exact scan.follows before
  · exact .of_aside before (by rw [elsewhere.scanner]) elsewhere.ongoing elsewhere.aside

/-! ## Runs -/

variable {params : ScanParams} {history : List Turn}

/-- **The link and the host agree about the scan.**  In every run of a new link, the bit of the
scanner says whether the host is scanning, and every turn makes its requests in order: no scan is
started while one is running, or while a camera is connected or being connected to; no scan is
cancelled unless one is running; and a device is connected to only when it was reported to advertise
itself as a camera, after the scan was cancelled in the same turn, and once in that turn. -/
theorem Run.in_order (run : Run (new { params }) history link) :
    (link.scanner.running ↔ Scanning (log history)) ∧
      Throughout (fun past turn => turn.InOrder (log past)) history := by
  refine run.invariant (fun history link => (link.scanner.running ↔ Scanning (log history)) ∧
    Throughout (fun past turn => turn.InOrder (log past)) history) ?_ ?_
  · exact ⟨iff_of_false Bool.false_ne_true not_scanning_nil, throughout_nil _⟩
  · rintro history turn ⟨before, hhistory⟩
    have hlog : entries turn.call.direct turn.exchanges = turn.log := by
      simp [entries, Turn.log]
    obtain ⟨running, requests, once⟩ := turn.step.follows before
    rw [hlog] at running requests
    rw [log_concat]
    exact ⟨running, throughout_concat_iff.2 ⟨hhistory, requests, once⟩⟩

/-- In the search, the host is asked to connect to the camera right after it was asked to cancel the
scan that found it. -/
theorem in_order_search :
    let history := playback (new {}) search
    Run (new {}) history (after (new {}) search) ∧ ¬ Scanning (log history) ∧
      Throughout (fun past turn => turn.InOrder (log past)) history ∧
      ∃ turn ∈ history, ⟨.connect sampleAddress Settings.connectTimeoutMs, .accepted⟩ ∈
        turn.exchanges := by
  intro history
  have run : Run (new {}) history (after (new {}) search) := run_playback (new {}) search
  obtain ⟨hrunning, hrequests⟩ := Run.in_order run
  exact ⟨run, fun scanning => absurd (hrunning.2 scanning) (by decide), hrequests, by decide⟩

end Link

end CameraCentral
