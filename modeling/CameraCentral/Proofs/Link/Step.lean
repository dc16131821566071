import CameraCentral.Proofs.Link.Turn
import CameraCentral.Proofs.Peer.Steps
import CameraCentral.Proofs.Peer.Subscription

/-!
# What a turn can do

`Step` lists everything that a turn can do, one rule for each way through the handlers, guards
included.  `Turn.step` says that there is nothing else.  Invariants of the link are proved by cases
on `Step`; no proof about runs goes back to the handlers.

The rules come in two groups.  `ScanStep` holds the turns that only concern the scanner and the
stage: they leave the registry and the camera alone, and their requests name no connection.  The
turns about connections are the rules of `Step` itself.
-/

namespace CameraCentral

namespace Link

/-! ## Losing a connection -/

/-- Asking the host to drop a connection: nothing changes if it will, and the connection is
forgotten at once if it refuses. -/
inductive Terminates (link : Link) (conn : ConnHandle) :
    List Exchange → Link → Reaction → Prop where
  | accepted :
    Terminates link conn [⟨.terminate conn Settings.terminateReason, .accepted⟩] link .nothing
  | refused (why : HostFault) :
    Terminates link conn [⟨.terminate conn Settings.terminateReason, .refused why⟩]
      (link.dropLink conn).1 (link.dropLink conn).2

/-- A refused connection is forgotten in the registry whether it was known or not. -/
@[simp] theorem peers_dropLink (link : Link) (conn : ConnHandle) :
    (link.dropLink conn).1.peers = link.peers.erase conn := by
  unfold dropLink
  split
  · rfl
  · rename_i h
    have hnone : link.peers.find? conn = none := by simpa using fun h' => h (.inl h')
    have hall : ∀ peer ∈ link.peers.peers, peer.conn ≠ conn := by
      simpa [Registry.find?] using hnone
    have hfilter : link.peers.peers.filter (fun peer => peer.conn ≠ conn) = link.peers.peers :=
      List.filter_eq_self.2 (by simpa using hall)
    simp only [Registry.erase, hfilter]

/-- The camera is forgotten with a connection exactly when the connection is the link's own. -/
@[simp] theorem camera_dropLink (link : Link) (conn : ConnHandle) :
    (link.dropLink conn).1.camera = if link.Owns conn then {} else link.camera := by
  unfold dropLink
  split
  · rfl
  · rename_i h
    rw [if_neg fun h' => h (.inr h')]

@[simp] theorem scanner_dropLink (link : Link) (conn : ConnHandle) :
    (link.dropLink conn).1.scanner = link.scanner := by
  unfold dropLink
  split <;> rfl

theorem stage_dropLink (link : Link) (conn : ConnHandle) :
    (link.dropLink conn).1.stage =
      if (link.peers.find? conn).isSome ∨ link.Owns conn then .idle else link.stage := by
  unfold dropLink
  split <;> rfl

/-- Asking the host to drop a connection does what `Terminates` says. -/
theorem terminates_of_yields {link link' : Link} {conn : ConnHandle} {exchanges : List Exchange}
    {reaction : Reaction} (h : (link.terminate conn).Yields exchanges (link', reaction)) :
    link.Terminates conn exchanges link' reaction := by
  unfold terminate at h
  rcases h.ask_cases with ⟨rest, rfl, hrest⟩ | ⟨why, rest, rfl, hrest⟩
  · obtain ⟨rfl, hvalue⟩ := Dialogue.yields_done_iff.1 hrest
    cases hvalue
    exact .accepted
  · obtain ⟨rfl, hvalue⟩ := Dialogue.yields_done_iff.1 hrest
    obtain ⟨rfl, rfl⟩ := Prod.ext_iff.1 hvalue
    exact .refused why

/-! ## What a turn can do -/

/-- The link after a scan was asked for and is running or on its way. -/
def searching (link : Link) (scanner : Scanner) : Link :=
  { link with scanner, stage := if link.stage = .idle then .scanning else link.stage }

/-- The link after the scan was stopped or ended. -/
def resting (link : Link) (scanner : Scanner) : Link :=
  { link with scanner, stage := if link.stage = .scanning then .idle else link.stage }

/-- The turns that are about the scanner.  The registry and the camera stay as they are. -/
inductive ScanStep (link : Link) : Call → List Exchange → Link → Response → Prop where
  | startDeferred (busy : link.Busy) :
    ScanStep link .startScan [] { link with scanner := link.scanner.want } (.result (.ok ()))
  | startRunning (free : ¬ link.Busy) (running : link.scanner.running) :
    ScanStep link .startScan [] (link.searching link.scanner.want) (.result (.ok ()))
  | startAccepted (free : ¬ link.Busy) (stopped : ¬ link.scanner.running) :
    ScanStep link .startScan [⟨.startScan link.scanner.params, .accepted⟩]
      (link.searching { link.scanner with wanted := true, devices := [], running := true })
      (.result (.ok ()))
  | startRefused (free : ¬ link.Busy) (stopped : ¬ link.scanner.running) (why : HostFault) :
    ScanStep link .startScan [⟨.startScan link.scanner.params, .refused why⟩]
      { link with scanner := { link.scanner with wanted := true, devices := [] } }
      (.result (.error (.host why)))
  | stopIdle (stopped : ¬ link.scanner.running) :
    ScanStep link .stopScan [] (link.resting { link.scanner with wanted := false })
      (.result (.ok ()))
  | stopAccepted (running : link.scanner.running) :
    ScanStep link .stopScan [⟨.cancelScan, .accepted⟩]
      (link.resting { link.scanner with wanted := false, running := false }) (.result (.ok ()))
  | stopRefused (running : link.scanner.running) (why : HostFault) :
    ScanStep link .stopScan [⟨.cancelScan, .refused why⟩]
      { link with scanner := { link.scanner with wanted := false } } (.result (.error (.host why)))
  | reportIgnored (report : Advert.Report)
      (h : ¬ (link.scanner.running ∧ ¬ link.Busy ∧ report.IsCamera)) :
    ScanStep link (.event (.advertisement report)) [] link (.reaction .nothing)
  | reportKept (report : Advert.Report) (running : link.scanner.running) (free : ¬ link.Busy)
      (isCamera : report.IsCamera) (why : HostFault) :
    ScanStep link (.event (.advertisement report)) [⟨.cancelScan, .refused why⟩]
      { link with scanner := (link.scanner.record report).1 } (.reaction .nothing)
  | connectAccepted (report : Advert.Report) (running : link.scanner.running)
      (free : ¬ link.Busy) (isCamera : report.IsCamera) :
    ScanStep link (.event (.advertisement report))
      [⟨.cancelScan, .accepted⟩, ⟨.connect report.address Settings.connectTimeoutMs, .accepted⟩]
      { link with
        scanner := { (link.scanner.record report).1 with running := false }, stage := .connecting }
      (.reaction .nothing)
  | connectRefused (report : Advert.Report) (running : link.scanner.running)
      (free : ¬ link.Busy) (isCamera : report.IsCamera) (why : HostFault) :
    ScanStep link (.event (.advertisement report))
      [⟨.cancelScan, .accepted⟩, ⟨.connect report.address Settings.connectTimeoutMs, .refused why⟩]
      { link with
        scanner := { (link.scanner.record report).1 with running := false }, stage := .idle }
      (.reaction { (link.scanner.record report).1 with running := false }.restartReaction)
  | scanComplete (reason : Status) :
    ScanStep link (.event (.scanComplete reason)) [] (link.resting link.scanner.complete)
      (.reaction .nothing)
  | connectFailed (conn : ConnHandle) (address : Address) (status : Status)
      (failed : ¬ status.IsSuccess) :
    ScanStep link (.event (.linkEstablished conn address status)) []
      { link with stage := if link.camera.IsConnected then link.stage else .idle }
      (.reaction link.scanner.restartReaction)
  | restartDeferred (busy : link.Busy) :
    ScanStep link (.event .scanRestartDue) [] link (.reaction .nothing)
  | restartPointless (free : ¬ link.Busy) (h : ¬ (link.scanner.wanted ∧ ¬ link.scanner.running)) :
    ScanStep link (.event .scanRestartDue) []
      { link with stage := if link.scanner.running then .scanning else link.stage }
      (.reaction .nothing)
  | restartAccepted (free : ¬ link.Busy) (wanted : link.scanner.wanted)
      (stopped : ¬ link.scanner.running) :
    ScanStep link (.event .scanRestartDue) [⟨.startScan link.scanner.params, .accepted⟩]
      { link with scanner := { link.scanner with running := true }, stage := .scanning }
      (.reaction .nothing)
  | restartRefused (free : ¬ link.Busy) (wanted : link.scanner.wanted)
      (stopped : ¬ link.scanner.running) (why : HostFault) :
    ScanStep link (.event .scanRestartDue) [⟨.startScan link.scanner.params, .refused why⟩] link
      (.reaction .nothing)

/-- Events that change nothing and ask for nothing: those that are only noted, and those about the
encryption or the database of a connection that is not registered. -/
def Ignores (link : Link) : Event → Prop
  | .encryptionChange conn _ | .discovery conn _ => link.peers.find? conn = none
  | .mtuChanged _ _ | .writeComplete _ _ _ | .notification _ _ _ _ => True
  | _ => False

/-- The link after a connection was registered and made the camera's. -/
def admitted (link : Link) (peers : Registry) (conn : ConnHandle) (address : Address) : Link :=
  { link with
    stage := .linkEstablished
    peers
    camera := { conn := some conn, address := some address } }

/-- The link after the entry of a peer was brought up to date. -/
def refreshed (link : Link) (peer : Peer) : Link :=
  { link with peers := link.peers.put peer }

/-- Everything that a turn can do. -/
inductive Step (link : Link) : Call → List Exchange → Link → Response → Prop where
  | scan {call : Call} {exchanges : List Exchange} {link' : Link} {response : Response}
      (step : ScanStep link call exchanges link' response) :
    Step link call exchanges link' response
  | ignored (event : Event) (h : link.Ignores event) :
    Step link (.event event) [] link (.reaction .nothing)
  | writeDenied (payload : Bytes) (why : Fault)
      (denied : link.camera.writeCommand payload = .done (.error why)) :
    Step link (.write payload) [] link (.result (.error why))
  | written (payload : Bytes) (conn : ConnHandle) (handle : AttHandle)
      (hconn : link.camera.conn = some conn) (hhandle : link.camera.commandHandle = some handle)
      (nonempty : payload ≠ []) (short : payload.length ≤ Settings.commandMaxLength)
      (answer : Answer) :
    Step link (.write payload) [⟨.writeNoResponse conn handle payload, answer⟩] link
      (.result answer.result)
  | unregistered (conn : ConnHandle) (address : Address) (status : Status)
      (success : status.IsSuccess) (why : Fault)
      (full : link.peers.add conn address = .error why)
      {exchanges : List Exchange} {link' : Link} {reaction : Reaction}
      (down : link.Terminates conn exchanges link' reaction) :
    Step link (.event (.linkEstablished conn address status)) exchanges link' (.reaction reaction)
  | securing (conn : ConnHandle) (address : Address) (status : Status)
      (success : status.IsSuccess) (peers : Registry)
      (added : link.peers.add conn address = .ok peers) :
    Step link (.event (.linkEstablished conn address status)) [⟨.secure conn, .accepted⟩]
      { link.admitted peers conn address with stage := .securing } (.reaction .nothing)
  | insecure (conn : ConnHandle) (address : Address) (status : Status)
      (success : status.IsSuccess) (peers : Registry)
      (added : link.peers.add conn address = .ok peers) (why : HostFault)
      {exchanges : List Exchange} {link' : Link} {reaction : Reaction}
      (down : (link.admitted peers conn address).Terminates conn exchanges link' reaction) :
    Step link (.event (.linkEstablished conn address status))
      (⟨.secure conn, .refused why⟩ :: exchanges) link' (.reaction reaction)
  | unencrypted (conn : ConnHandle) (status : Status) (failed : ¬ status.IsSuccess) (peer : Peer)
      (known : link.peers.find? conn = some peer)
      {exchanges : List Exchange} {link' : Link} {reaction : Reaction}
      (down : link.Terminates conn exchanges link' reaction) :
    Step link (.event (.encryptionChange conn status)) exchanges link' (.reaction reaction)
  | walkRunning (conn : ConnHandle) (status : Status) (success : status.IsSuccess) (peer : Peer)
      (known : link.peers.find? conn = some peer) (running : peer.progress.InFlight) :
    Step link (.event (.encryptionChange conn status)) [] (link.refreshed peer)
      (.reaction .nothing)
  | walkStarted (conn : ConnHandle) (status : Status) (success : status.IsSuccess) (peer : Peer)
      (known : link.peers.find? conn = some peer) (halted : ¬ peer.progress.InFlight) :
    Step link (.event (.encryptionChange conn status)) [⟨.discoverServices conn, .accepted⟩]
      { link.refreshed { peer with services := [], progress := .services } with
        stage := .serviceDiscovery }
      (.reaction .nothing)
  | walkRefused (conn : ConnHandle) (status : Status) (success : status.IsSuccess) (peer : Peer)
      (known : link.peers.find? conn = some peer) (halted : ¬ peer.progress.InFlight)
      (why : HostFault) {exchanges : List Exchange} {link' : Link} {reaction : Reaction}
      (down : (link.refreshed { peer with services := [], progress := .failed }).Terminates conn
        exchanges link' reaction) :
    Step link (.event (.encryptionChange conn status))
      (⟨.discoverServices conn, .refused why⟩ :: exchanges) link' (.reaction reaction)
  | disconnect (conn : ConnHandle) (reason : Status) :
    Step link (.event (.disconnect conn reason)) [] (link.dropLink conn).1
      (.reaction (link.dropLink conn).2)
  | pairingIgnored (conn : ConnHandle) (unknown : link.peers.find? conn = none) :
    Step link (.event (.repeatPairing conn)) [] link (.reaction .ignorePairing)
  | pairingRetried (conn : ConnHandle) (peer : Peer) (known : link.peers.find? conn = some peer)
      (answer : Answer) :
    Step link (.event (.repeatPairing conn)) [⟨.forgetBond peer.address, answer⟩] link
      (.reaction .retryPairing)
  | walkGoesOn (conn : ConnHandle) (finding : Finding) (peer peer' : Peer)
      (known : link.peers.find? conn = some peer) (exchanges : List Exchange)
      (walk : peer.WalkStep finding exchanges peer' none) :
    Step link (.event (.discovery conn finding)) exchanges (link.refreshed peer')
      (.reaction .nothing)
  | walkComplete (conn : ConnHandle) (finding : Finding) (peer peer' : Peer)
      (known : link.peers.find? conn = some peer) (exchanges writes : List Exchange)
      (walk : peer.WalkStep finding exchanges peer' (some .complete))
      (count : SubscriptionCount) (subscription : peer'.subscribeAll.Yields writes count) :
    Step link (.event (.discovery conn finding)) (exchanges ++ writes)
      ((link.refreshed peer').subscribed peer') (.reaction .nothing)
  | walkFailed (conn : ConnHandle) (finding : Finding) (peer peer' : Peer)
      (known : link.peers.find? conn = some peer) (exchanges : List Exchange) (why : Fault)
      (walk : peer.WalkStep finding exchanges peer' (some (.failed why)))
      {exchanges' : List Exchange} {link' : Link} {reaction : Reaction}
      (down : (link.refreshed peer').Terminates conn exchanges' link' reaction) :
    Step link (.event (.discovery conn finding)) (exchanges ++ exchanges') link'
      (.reaction reaction)

/-! ## There is nothing else -/

section Inversion

variable {link link' : Link} {exchanges : List Exchange}

theorem scanStep_of_startScan {result : Except Fault Unit}
    (h : link.startScan.Yields exchanges (link', result)) :
    ScanStep link .startScan exchanges link' (.result result) := by
  unfold startScan at h
  split at h
  · rename_i busy
    obtain ⟨rfl, hvalue⟩ := Dialogue.yields_done_iff.1 h
    cases hvalue
    exact .startDeferred busy
  · rename_i free
    unfold Scanner.start at h
    split at h
    · rename_i running
      obtain ⟨rfl, hvalue⟩ := Dialogue.yields_done_iff.1 h
      cases hvalue
      exact .startRunning free running
    · rename_i stopped
      rcases h.ask_cases with ⟨rest, rfl, hrest⟩ | ⟨why, rest, rfl, hrest⟩
      · obtain ⟨rfl, hvalue⟩ := Dialogue.yields_done_iff.1 hrest
        cases hvalue
        exact .startAccepted free stopped
      · obtain ⟨rfl, hvalue⟩ := Dialogue.yields_done_iff.1 hrest
        cases hvalue
        exact .startRefused free stopped why

theorem scanStep_of_stopScan {result : Except Fault Unit}
    (h : link.stopScan.Yields exchanges (link', result)) :
    ScanStep link .stopScan exchanges link' (.result result) := by
  unfold stopScan Scanner.stop at h
  split at h
  · rename_i running
    rcases h.ask_cases with ⟨rest, rfl, hrest⟩ | ⟨why, rest, rfl, hrest⟩
    · obtain ⟨rfl, hvalue⟩ := Dialogue.yields_done_iff.1 hrest
      cases hvalue
      exact .stopAccepted running
    · obtain ⟨rfl, hvalue⟩ := Dialogue.yields_done_iff.1 hrest
      cases hvalue
      exact .stopRefused running why
  · rename_i stopped
    obtain ⟨rfl, hvalue⟩ := Dialogue.yields_done_iff.1 h
    cases hvalue
    exact .stopIdle stopped

theorem scanStep_of_onAdvertisement {report : Advert.Report} {reaction : Reaction}
    (h : (link.onAdvertisement report).Yields exchanges (link', reaction)) :
    ScanStep link (.event (.advertisement report)) exchanges link' (.reaction reaction) := by
  unfold onAdvertisement Scanner.cancel at h
  split at h
  · rename_i hreport
    obtain ⟨running, free, isCamera⟩ := hreport
    rcases h.ask_cases with ⟨rest, rfl, hrest⟩ | ⟨why, rest, rfl, hrest⟩
    · rcases Dialogue.Yields.ask_cases hrest with ⟨rest, rfl, hrest'⟩ | ⟨why, rest, rfl, hrest'⟩
      · obtain ⟨rfl, hvalue⟩ := Dialogue.yields_done_iff.1 hrest'
        cases hvalue
        exact .connectAccepted report running free isCamera
      · obtain ⟨rfl, hvalue⟩ := Dialogue.yields_done_iff.1 hrest'
        cases hvalue
        exact .connectRefused report running free isCamera why
    · obtain ⟨rfl, hvalue⟩ := Dialogue.yields_done_iff.1 hrest
      cases hvalue
      exact .reportKept report running free isCamera why
  · rename_i hreport
    obtain ⟨rfl, hvalue⟩ := Dialogue.yields_done_iff.1 h
    cases hvalue
    exact .reportIgnored report hreport

theorem scanStep_of_onScanRestartDue
    (h : link.onScanRestartDue.Yields exchanges link') :
    ScanStep link (.event .scanRestartDue) exchanges link' (.reaction .nothing) := by
  unfold onScanRestartDue Scanner.resume at h
  split at h
  · rename_i busy
    obtain ⟨rfl, rfl⟩ := Dialogue.yields_done_iff.1 h
    exact .restartDeferred busy
  · rename_i free
    split at h
    · rename_i hresume
      obtain ⟨wanted, stopped⟩ := hresume
      rcases h.ask_cases with ⟨rest, rfl, hrest⟩ | ⟨why, rest, rfl, hrest⟩
      · obtain ⟨rfl, rfl⟩ := Dialogue.yields_done_iff.1 hrest
        exact .restartAccepted free wanted stopped
      · obtain ⟨rfl, rfl⟩ := Dialogue.yields_done_iff.1 hrest
        simp only [stopped]
        exact .restartRefused free wanted stopped why
    · rename_i hresume
      obtain ⟨rfl, rfl⟩ := Dialogue.yields_done_iff.1 h
      exact .restartPointless free hresume

theorem step_of_writeCommand {payload : Bytes} {result : Except Fault Unit}
    (h : (link.writeCommand payload).Yields exchanges result) :
    Step link (.write payload) exchanges link (.result result) := by
  unfold writeCommand Camera.writeCommand at h
  cases hconn : link.camera.conn with
  | none =>
    simp only [hconn] at h
    obtain ⟨rfl, rfl⟩ := Dialogue.yields_done_iff.1 h
    exact .writeDenied payload _ (by simp only [Camera.writeCommand, hconn])
  | some conn =>
    cases hhandle : link.camera.commandHandle with
    | none =>
      simp only [hconn, hhandle] at h
      obtain ⟨rfl, rfl⟩ := Dialogue.yields_done_iff.1 h
      exact .writeDenied payload _ (by simp only [Camera.writeCommand, hconn, hhandle])
    | some handle =>
      simp only [hconn, hhandle] at h
      split at h
      · rename_i hempty
        obtain ⟨rfl, rfl⟩ := Dialogue.yields_done_iff.1 h
        exact .writeDenied payload _ (by
          simp only [Camera.writeCommand, hconn, hhandle, if_pos hempty])
      · rename_i hempty
        split at h
        · rename_i hlong
          obtain ⟨rfl, rfl⟩ := Dialogue.yields_done_iff.1 h
          exact .writeDenied payload _ (by
            simp only [Camera.writeCommand, hconn, hhandle, if_neg hempty, if_pos hlong])
        · rename_i hlong
          obtain ⟨answer, rest, rfl, hrest⟩ := Dialogue.yields_ask_iff.1 h
          obtain ⟨rfl, rfl⟩ := Dialogue.yields_done_iff.1 hrest
          exact .written payload conn handle hconn hhandle hempty (Nat.le_of_not_lt hlong) answer

theorem step_of_onLinkEstablished {conn : ConnHandle} {address : Address} {status : Status}
    {reaction : Reaction}
    (h : (link.onLinkEstablished conn address status).Yields exchanges (link', reaction)) :
    Step link (.event (.linkEstablished conn address status)) exchanges link'
      (.reaction reaction) := by
  unfold onLinkEstablished at h
  split at h
  · rename_i success
    cases added : link.peers.add conn address with
    | error why =>
      rw [added] at h
      exact .unregistered conn address status success why added (terminates_of_yields h)
    | ok peers =>
      rw [added] at h
      rcases h.ask_cases with ⟨rest, rfl, hrest⟩ | ⟨why, rest, rfl, hrest⟩
      · obtain ⟨rfl, hvalue⟩ := Dialogue.yields_done_iff.1 hrest
        cases hvalue
        exact .securing conn address status success peers added
      · exact .insecure conn address status success peers added why (terminates_of_yields hrest)
  · rename_i failed
    obtain ⟨rfl, hvalue⟩ := Dialogue.yields_done_iff.1 h
    cases hvalue
    exact .scan (.connectFailed conn address status failed)

theorem step_of_onEncryptionChange {conn : ConnHandle} {status : Status} {reaction : Reaction}
    (h : (link.onEncryptionChange conn status).Yields exchanges (link', reaction)) :
    Step link (.event (.encryptionChange conn status)) exchanges link' (.reaction reaction) := by
  unfold onEncryptionChange at h
  cases known : link.peers.find? conn with
  | none =>
    rw [known] at h
    obtain ⟨rfl, hvalue⟩ := Dialogue.yields_done_iff.1 h
    cases hvalue
    exact .ignored _ known
  | some peer =>
    obtain rfl := Registry.conn_of_find?_eq_some known
    rw [known] at h
    simp only at h
    split at h
    · rename_i success
      unfold Registry.discoverAll Peer.startWalk at h
      rw [known] at h
      simp only at h
      split at h
      · rename_i running
        obtain ⟨rfl, hvalue⟩ := Dialogue.yields_done_iff.1 h
        cases hvalue
        exact .walkRunning _ status success peer known running
      · rename_i halted
        rcases h.ask_cases with ⟨rest, rfl, hrest⟩ | ⟨why, rest, rfl, hrest⟩
        · obtain ⟨rfl, hvalue⟩ := Dialogue.yields_done_iff.1 hrest
          cases hvalue
          exact .walkStarted _ status success peer known halted
        · exact .walkRefused _ status success peer known halted why (terminates_of_yields hrest)
    · rename_i failed
      exact .unencrypted _ status failed peer known (terminates_of_yields h)

theorem step_of_onFinding {conn : ConnHandle} {finding : Finding} {reaction : Reaction}
    (h : (link.onFinding conn finding).Yields exchanges (link', reaction)) :
    Step link (.event (.discovery conn finding)) exchanges link' (.reaction reaction) := by
  unfold onFinding Registry.onFinding at h
  cases known : link.peers.find? conn with
  | none =>
    rw [known] at h
    obtain ⟨rfl, hvalue⟩ := Dialogue.yields_done_iff.1 h
    cases hvalue
    exact .ignored _ known
  | some peer =>
    rw [known] at h
    simp only [bind_assoc] at h
    obtain ⟨first, second, ⟨peer', outcome⟩, rfl, hwalk, hrest⟩ := Dialogue.yields_bind_iff.1 h
    have walk := Peer.walkStep_of_onFinding hwalk
    cases outcome with
    | none =>
      obtain ⟨rfl, hvalue⟩ := Dialogue.yields_done_iff.1 hrest
      cases hvalue
      rw [List.append_nil]
      exact .walkGoesOn conn finding peer peer' known first walk
    | some outcome =>
      cases outcome with
      | failed why =>
        exact .walkFailed conn finding peer peer' known first why walk (terminates_of_yields hrest)
      | complete =>
        have hfound : (link.peers.put peer').find? conn = some peer' := by
          have hconn : peer'.conn = conn := by
            rw [walk.conn_eq, Registry.conn_of_find?_eq_some known]
          rw [← hconn] at known ⊢
          exact Registry.find?_put_self known
        change (onWalkComplete (link.refreshed peer') conn).Yields second (link', reaction) at hrest
        unfold onWalkComplete refreshed at hrest
        simp only [hfound] at hrest
        obtain ⟨writes, last, count, rfl, hwrites, hlast⟩ := Dialogue.yields_bind_iff.1 hrest
        obtain ⟨rfl, hvalue⟩ := Dialogue.yields_done_iff.1 hlast
        cases hvalue
        rw [List.append_nil]
        exact .walkComplete conn finding peer peer' known first writes walk count hwrites

theorem step_of_onRepeatPairing {conn : ConnHandle} {reaction : Reaction}
    (h : (link.onRepeatPairing conn).Yields exchanges reaction) :
    Step link (.event (.repeatPairing conn)) exchanges link (.reaction reaction) := by
  unfold onRepeatPairing at h
  cases known : link.peers.find? conn with
  | none =>
    rw [known] at h
    obtain ⟨rfl, rfl⟩ := Dialogue.yields_done_iff.1 h
    exact .pairingIgnored conn known
  | some peer =>
    rw [known] at h
    obtain ⟨answer, rest, rfl, hrest⟩ := Dialogue.yields_ask_iff.1 h
    obtain ⟨rfl, rfl⟩ := Dialogue.yields_done_iff.1 hrest
    exact .pairingRetried conn peer known answer

/-- An event does what `Step` says. -/
theorem step_of_onEvent {event : Event} {reaction : Reaction}
    (h : (link.onEvent event).Yields exchanges (link', reaction)) :
    Step link (.event event) exchanges link' (.reaction reaction) := by
  cases event with
  | advertisement report => exact .scan (scanStep_of_onAdvertisement h)
  | scanComplete reason =>
    obtain ⟨rfl, hvalue⟩ := Dialogue.yields_done_iff.1 h
    cases hvalue
    exact .scan (.scanComplete reason)
  | linkEstablished conn address status => exact step_of_onLinkEstablished h
  | encryptionChange conn status => exact step_of_onEncryptionChange h
  | disconnect conn reason =>
    obtain ⟨rfl, hvalue⟩ := Dialogue.yields_done_iff.1 h
    obtain ⟨rfl, rfl⟩ := Prod.ext_iff.1 hvalue
    exact .disconnect conn reason
  | repeatPairing conn =>
    obtain ⟨middle, hmiddle, hvalue⟩ := Dialogue.yields_map_iff.1 h
    cases hvalue
    exact step_of_onRepeatPairing hmiddle
  | discovery conn finding => exact step_of_onFinding h
  | scanRestartDue =>
    obtain ⟨middle, hmiddle, hvalue⟩ := Dialogue.yields_map_iff.1 h
    cases hvalue
    exact .scan (scanStep_of_onScanRestartDue hmiddle)
  | mtuChanged _ _ | writeComplete _ _ _ | notification _ _ _ _ =>
    obtain ⟨rfl, hvalue⟩ := Dialogue.yields_done_iff.1 h
    cases hvalue
    exact .ignored _ trivial

/-- A call that is no command does what `Step` says. -/
theorem step_of_dialogue {call : Call} {response : Response}
    (h : (call.direct.dialogue link).Yields exchanges (link', response)) :
    Step link call.direct exchanges link' response := by
  have hdirect : ∀ command, call.direct ≠ .perform command := by
    intro command hcall
    cases call with
    | perform command' => cases command' <;> cases hcall
    | event _ | startScan | stopScan | write _ => cases hcall
  cases hcall : call.direct with
  | event event =>
    rw [hcall] at h
    obtain ⟨⟨middle, reaction⟩, hmiddle, hvalue⟩ := Dialogue.yields_map_iff.1 h
    cases hvalue
    exact step_of_onEvent hmiddle
  | startScan =>
    rw [hcall] at h
    obtain ⟨⟨middle, result⟩, hmiddle, hvalue⟩ := Dialogue.yields_map_iff.1 h
    cases hvalue
    exact .scan (scanStep_of_startScan hmiddle)
  | stopScan =>
    rw [hcall] at h
    obtain ⟨⟨middle, result⟩, hmiddle, hvalue⟩ := Dialogue.yields_map_iff.1 h
    cases hvalue
    exact .scan (scanStep_of_stopScan hmiddle)
  | write payload =>
    rw [hcall] at h
    obtain ⟨result, hmiddle, hvalue⟩ := Dialogue.yields_map_iff.1 h
    cases hvalue
    exact step_of_writeCommand hmiddle
  | perform command => exact absurd hcall (hdirect command)

end Inversion

/-- **A turn does what `Step` says.** -/
theorem Turn.step (turn : Turn) :
    Step turn.before turn.call.direct turn.exchanges turn.after turn.response := by
  have h := turn.yields
  rw [← Call.dialogue_direct] at h
  exact step_of_dialogue h

end Link

end CameraCentral
