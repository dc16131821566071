import CameraCentral.Proofs.Link.Traffic

/-!
# What a stage says of the link

The stage, the scanner, the registry and the camera are brought up to date one after the other, and
a handler may break off between two of them because the host refuses a request.  They are kept
consistent all the same.  `Link.Supports` is the table of what each stage says of the rest of the
link, and `Link.Consistent` adds to it what ties the camera to the registry.

The stages are about the camera only in part.  A stage of a walk is also entered for another
connection that is registered, so it says no more than that some connection is; and the stage `idle`
says nothing, because it is entered whenever a registered connection is lost.

Every operation that the handlers are made of keeps the link consistent, and so does every turn
(`Step.consistent`).
-/

namespace CameraCentral

namespace Link

variable {link link' : Link} {call : Call} {exchanges : List Exchange} {response : Response}
  {conn : ConnHandle} {reaction : Reaction}

/-- What a stage says of the rest of the link. -/
def Supports (link : Link) : Stage → Prop
  | .idle => True
  | .scanning => link.scanner.running ∧ ¬ link.camera.IsConnected
  | .connecting => ¬ link.scanner.running ∧ ¬ link.camera.IsConnected
  | .linkEstablished | .securing => link.camera.IsConnected ∧ link.peers.peers ≠ []
  | .serviceDiscovery | .subscribed => link.peers.peers ≠ []
  | .ready => link.camera.IsReady ∧ link.peers.peers ≠ []

/-- The parts of the link go together. -/
structure Consistent (link : Link) : Prop where
  /-- The camera's connection is registered, for the device that is the camera. -/
  registered : ∀ conn, link.camera.conn = some conn →
    ∃ peer, link.peers.find? conn = some peer ∧ link.camera.address = some peer.address
  /-- Nothing is known of a camera that is not connected. -/
  forgotten : link.camera.conn = none →
    link.camera.commandHandle = none ∧ link.camera.address = none
  supported : link.Supports link.stage

/-- In the stage `idle` the camera and the registry are all there is to look at. -/
theorem Consistent.of_idle (stage : link.stage = .idle)
    (registered : ∀ conn, link.camera.conn = some conn →
      ∃ peer, link.peers.find? conn = some peer ∧ link.camera.address = some peer.address)
    (forgotten : link.camera.conn = none →
      link.camera.commandHandle = none ∧ link.camera.address = none) : link.Consistent where
  registered := registered
  forgotten := forgotten
  supported := by
    rw [stage]
    trivial

theorem consistent_new (scanner : Scanner) : (new scanner).Consistent :=
  .of_idle rfl (fun _ hconn => by cases hconn) fun _ => ⟨rfl, rfl⟩

/-- A connection that is registered is in the list of peers. -/
theorem peers_ne_nil {peer : Peer} (known : link.peers.find? conn = some peer) :
    link.peers.peers ≠ [] := by
  intro hnil
  rw [Registry.find?, hnil] at known
  cases known

/-- A stage goes on saying what it said as long as the scanner runs as before, the camera stays, and
the registry is not emptied. -/
theorem Supports.congr {stage : Stage} (h : link.Supports stage)
    (running : link'.scanner.running = link.scanner.running)
    (camera : link'.camera = link.camera)
    (peers : link.peers.peers ≠ [] → link'.peers.peers ≠ []) : link'.Supports stage := by
  cases stage with
  | idle => trivial
  | scanning => rwa [Supports, running, camera]
  | connecting => rwa [Supports, running, camera]
  | linkEstablished | securing =>
    rw [Supports, camera]
    exact ⟨h.1, peers h.2⟩
  | serviceDiscovery | subscribed => exact peers h
  | ready =>
    rw [Supports, camera]
    exact ⟨h.1, peers h.2⟩

/-! ## The operations that the handlers are made of -/

/-- A connection is dropped together with the camera that is at it, and the stage that may have been
its own is left. -/
theorem Consistent.dropLink (h : link.Consistent) (conn : ConnHandle) :
    (link.dropLink conn).1.Consistent := by
  by_cases hours : (link.peers.find? conn).isSome ∨ link.Owns conn
  · have hstage : (link.dropLink conn).1.stage = .idle := by
      rw [stage_dropLink, if_pos hours]
    refine .of_idle hstage (fun other hother => ?_) fun hnone => ?_
    · rw [camera_dropLink] at hother ⊢
      by_cases howns : link.Owns conn
      · rw [if_pos howns] at hother
        cases hother
      · rw [if_neg howns] at hother ⊢
        have hne : other ≠ conn := fun heq => howns (.inl (heq ▸ hother))
        rw [peers_dropLink, Registry.find?_erase_of_ne _ hne]
        exact h.registered other hother
    · rw [camera_dropLink] at hnone ⊢
      by_cases howns : link.Owns conn
      · rw [if_pos howns]
        exact ⟨rfl, rfl⟩
      · rw [if_neg howns] at hnone ⊢
        exact h.forgotten hnone
  · have hsame : (link.dropLink conn).1 = link := by
      rw [Link.dropLink, if_neg hours]
    rwa [hsame]

/-- Asking the host to drop a connection keeps the link consistent, whatever the host says. -/
theorem Terminates.consistent (down : link.Terminates conn exchanges link' reaction)
    (h : link.Consistent) : link'.Consistent := by
  cases down with
  | accepted => exact h
  | refused why => exact h.dropLink conn

/-- A connection that comes up is registered, and the camera is at it. -/
theorem consistent_admitted {peers : Registry} {address : Address} {stage : Stage}
    (added : link.peers.add conn address = .ok peers)
    (hstage : stage = .linkEstablished ∨ stage = .securing) :
    ({ link.admitted peers conn address with stage } : Link).Consistent := by
  have known : peers.find? conn = some { conn := conn, address := address } := by
    rw [Registry.find?_of_add added, if_pos rfl]
  have hpeers : peers.peers ≠ [] := by
    intro hnil
    rw [Registry.find?, hnil] at known
    cases known
  refine ⟨fun other hother => ?_, fun hnone => ?_, ?_⟩
  · obtain rfl : conn = other := Option.some.inj hother
    exact ⟨_, known, rfl⟩
  · cases hnone
  · rcases hstage with rfl | rfl
    · exact ⟨rfl, hpeers⟩
    · exact ⟨rfl, hpeers⟩

/-- Bringing the entry of a device up to date changes nothing that the rest of the link is about. -/
theorem Consistent.refreshed (h : link.Consistent) {peer old : Peer}
    (known : link.peers.find? conn = some old) (hconn : peer.conn = conn)
    (haddress : peer.address = old.address) : (link.refreshed peer).Consistent := by
  subst hconn
  refine ⟨fun other hother => ?_, h.forgotten, ?_⟩
  · obtain ⟨found, hfound, hof⟩ := h.registered other hother
    unfold Link.refreshed
    rw [Registry.find?_put known]
    by_cases hsame : other = peer.conn
    · obtain rfl : old = found := Option.some.inj (known.symm.trans (hsame ▸ hfound))
      refine ⟨peer, if_pos hsame, ?_⟩
      rw [haddress]
      exact hof
    · exact ⟨found, by rw [if_neg hsame, hfound], hof⟩
  · refine h.supported.congr rfl rfl fun hpeers => ?_
    simpa [Link.refreshed, Registry.put] using hpeers

/-- The stage of a walk says no more than that some connection is registered. -/
theorem Consistent.discovering (h : link.Consistent) (peers : link.peers.peers ≠ []) :
    ({ link with stage := .serviceDiscovery } : Link).Consistent :=
  ⟨h.registered, h.forgotten, peers⟩

/-- After a walk the camera is ready if it was the camera's and a handle for commands was found. -/
theorem Consistent.subscribed (h : link.Consistent) (peer : Peer)
    (peers : link.peers.peers ≠ []) : (link.subscribed peer).Consistent := by
  unfold Link.subscribed
  by_cases mine : link.camera.conn = some peer.conn
  · rw [if_pos mine]
    have hconnected : link.camera.conn.isSome = true := by rw [mine]; rfl
    refine ⟨h.registered, fun hnone => ?_, ?_⟩
    · cases hnone.symm.trans mine
    · by_cases hfound : peer.commandHandle?.isSome
      · rw [if_pos hfound]
        exact ⟨⟨hconnected, hfound⟩, peers⟩
      · rw [if_neg hfound]
        exact peers
  · rw [if_neg mine]
    exact ⟨h.registered, h.forgotten, peers⟩

/-! ## The turns about the scanner -/

/-- A scan that runs while nobody is connected or being connected supports the stage that the link
is in while it is looked for a camera. -/
theorem supports_searching {scanner : Scanner} (h : link.Supports link.stage)
    (free : ¬ link.Busy) (running : scanner.running) :
    (link.searching scanner).Supports (link.searching scanner).stage := by
  have unconnected : ¬ link.camera.IsConnected := fun hconnected => free (.inl hconnected)
  unfold searching
  by_cases hidle : link.stage = .idle
  · rw [if_pos hidle]
    exact ⟨running, unconnected⟩
  · rw [if_neg hidle]
    cases hstage : link.stage with
    | idle => exact absurd hstage hidle
    | scanning => exact ⟨running, unconnected⟩
    | connecting => exact absurd (.inr hstage) free
    | linkEstablished | securing | serviceDiscovery | subscribed | ready =>
      rw [hstage] at h
      exact h

/-- When a scan ends the stage in which it was running is left. -/
theorem supports_resting {scanner : Scanner} (h : link.Supports link.stage)
    (stopped : ¬ link.scanner.running → ¬ scanner.running) :
    (link.resting scanner).Supports (link.resting scanner).stage := by
  unfold resting
  by_cases hscanning : link.stage = .scanning
  · rw [if_pos hscanning]
    trivial
  · rw [if_neg hscanning]
    cases hstage : link.stage with
    | idle => trivial
    | scanning => exact absurd hstage hscanning
    | connecting =>
      rw [hstage] at h
      exact ⟨stopped h.1, h.2⟩
    | linkEstablished | securing | serviceDiscovery | subscribed | ready =>
      rw [hstage] at h
      exact h

/-- After a turn about the scanner the stage says what it should. -/
theorem ScanStep.supported (step : ScanStep link call exchanges link' response)
    (h : link.Supports link.stage) : link'.Supports link'.stage := by
  cases step with
  | startDeferred busy => exact h.congr rfl rfl id
  | startRunning free running => exact supports_searching h free running
  | startAccepted free stopped => exact supports_searching h free rfl
  | startRefused free stopped why => exact h.congr rfl rfl id
  | stopIdle stopped => exact supports_resting h id
  | stopAccepted running => exact supports_resting h fun _ => Bool.false_ne_true
  | stopRefused running why => exact h.congr rfl rfl id
  | reportIgnored report ignored => exact h
  | reportKept report running free isCamera why =>
    exact h.congr (Scanner.running_record link.scanner report) rfl id
  | connectAccepted report running free isCamera =>
    exact ⟨Bool.false_ne_true, fun hconnected => free (.inl hconnected)⟩
  | connectRefused report running free isCamera why => trivial
  | scanComplete reason => exact supports_resting h fun _ => Bool.false_ne_true
  | connectFailed conn address status failed =>
    by_cases hconnected : link.camera.IsConnected
    · rw [if_pos hconnected]
      exact h.congr rfl rfl id
    · rw [if_neg hconnected]
      trivial
  | restartDeferred busy => exact h
  | restartPointless free pointless =>
    by_cases running : link.scanner.running
    · rw [if_pos running]
      exact ⟨running, fun hconnected => free (.inl hconnected)⟩
    · rw [if_neg running]
      exact h.congr rfl rfl id
  | restartAccepted free wanted stopped => exact ⟨rfl, fun hconnected => free (.inl hconnected)⟩
  | restartRefused free wanted stopped why => exact h

/-- The turns about the scanner keep the link consistent. -/
theorem ScanStep.consistent (step : ScanStep link call exchanges link' response)
    (h : link.Consistent) : link'.Consistent where
  registered := by
    rw [step.camera_eq, step.peers_eq]
    exact h.registered
  forgotten := by
    rw [step.camera_eq]
    exact h.forgotten
  supported := step.supported h.supported

/-! ## All turns -/

/-- A finding leaves the link consistent. -/
theorem Consistent.walked (h : link.Consistent) {finding : Finding} {peer peer' : Peer}
    {outcome : Option Outcome} (known : link.peers.find? conn = some peer)
    (walk : peer.WalkStep finding exchanges peer' outcome) : (link.refreshed peer').Consistent :=
  h.refreshed known (find?_of_walk known walk).1 walk.address_eq

/-- Bringing an entry up to date does not empty the registry. -/
theorem peers_refreshed_ne_nil {peer old : Peer} (known : link.peers.find? conn = some old)
    (hconn : peer.conn = conn) : (link.refreshed peer).peers.peers ≠ [] :=
  peers_ne_nil (find?_refreshed_self known hconn)

/-- **Every turn keeps the link consistent.** -/
theorem Step.consistent (step : Step link call exchanges link' response) (h : link.Consistent) :
    link'.Consistent := by
  cases step with
  | scan step => exact step.consistent h
  | ignored event ignores => exact h
  | writeDenied payload why denied => exact h
  | written payload conn handle _ _ _ _ answer => exact h
  | unregistered conn address status success why full down => exact down.consistent h
  | securing conn address status success peers added => exact consistent_admitted added (.inr rfl)
  | insecure conn address status success peers added why down =>
    exact down.consistent (consistent_admitted added (.inl rfl))
  | unencrypted conn status failed peer known down => exact down.consistent h
  | walkRunning conn status success peer known running =>
    exact h.refreshed known (Registry.conn_of_find?_eq_some known) rfl
  | walkStarted conn status success peer known halted =>
    obtain rfl : peer.conn = conn := Registry.conn_of_find?_eq_some known
    let restarted : Peer := { peer with services := [], progress := .services }
    have hrestarted : (link.refreshed restarted).Consistent := h.refreshed known rfl rfl
    have hpeers : (link.refreshed restarted).peers.peers ≠ [] := peers_refreshed_ne_nil known rfl
    exact hrestarted.discovering hpeers
  | walkRefused conn status success peer known halted why down =>
    obtain rfl : peer.conn = conn := Registry.conn_of_find?_eq_some known
    exact down.consistent (h.refreshed known rfl rfl)
  | disconnect conn reason => exact h.dropLink conn
  | pairingIgnored conn unknown => exact h
  | pairingRetried conn peer known answer => exact h
  | walkGoesOn conn finding peer peer' known exchanges walk => exact h.walked known walk
  | walkComplete conn finding peer peer' known exchanges writes walk count subscription =>
    have hconn : peer'.conn = conn := (find?_of_walk known walk).1
    exact (h.walked known walk).subscribed peer' (peers_refreshed_ne_nil known hconn)
  | walkFailed conn finding peer peer' known exchanges why walk down =>
    exact down.consistent (h.walked known walk)

variable {history : List Turn} {scanner : Scanner}

/-- **The parts of the link go together in every run of a new link**, over all calls and with all
answers of the host. -/
theorem Run.link_consistent (run : Run (new scanner) history link) : link.Consistent :=
  run.invariant (fun _ link => link.Consistent) (consistent_new scanner)
    fun _ turn h => turn.step.consistent h

/-- At the end of the visit the camera is ready: it is at a registered connection, and its handle
for commands is known. -/
theorem consistent_visit :
    Run (new {}) (playback (new {}) visit) (after (new {}) visit) ∧
      (after (new {}) visit).Consistent ∧ (after (new {}) visit).stage = .ready ∧
        (after (new {}) visit).camera.IsReady := by
  have run : Run (new {}) (playback (new {}) visit) (after (new {}) visit) :=
    run_playback (new {}) visit
  have consistent : (after (new {}) visit).Consistent := Run.link_consistent run
  have ready : (after (new {}) visit).stage = .ready := by decide
  have supported : (after (new {}) visit).Supports .ready := ready ▸ consistent.supported
  exact ⟨run, consistent, ready, supported.1⟩

end Link

end CameraCentral
