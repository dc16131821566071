import CameraCentral.Proofs.Link.History
import CameraCentral.Proofs.Link.Step

/-!
# What a turn changes

The rules of `Step` seen from one side at a time.  `PeerChange` is what a turn can do to the entry
of one connection in the registry, `CameraChange` what it can do to the camera, and `Cause` what can
lie behind a request that names a connection.

The camera and the registry are kept in step by one invariant: the connection of the camera is
registered (`Homed`).
-/

namespace CameraCentral

namespace Link

/-! ## The entry of a connection -/

/-- How far the walk of a registered connection has come. -/
def progress? (link : Link) (conn : ConnHandle) : Option Progress :=
  (link.peers.find? conn).map (·.progress)

/-- The handle for commands that the database of a registered connection gives. -/
def commandHandle? (link : Link) (conn : ConnHandle) : Option AttHandle :=
  (link.peers.find? conn).bind (·.commandHandle?)

/-- What a call can make of the entry of a connection. -/
inductive PeerChange (link : Link) (call : Call) (conn : ConnHandle) : Option Peer → Prop where
  | same (up : call.event?.bind Event.disconnected? ≠ some conn) :
    PeerChange link call conn (link.peers.find? conn)
  | dropped : PeerChange link call conn none
  | added (address : Address) (up : call.event?.bind Event.established? = some conn)
      (unknown : link.peers.find? conn = none)
      (room : link.peers.peers.length < Settings.maxPeers) :
    PeerChange link call conn (some { conn, address })
  | restarted (encrypted : call.event?.bind Event.encrypted? = some conn) (peer : Peer)
      (known : link.peers.find? conn = some peer) (halted : ¬ peer.progress.InFlight)
      (progress : Progress) (h : progress = .services ∨ progress = .failed) :
    PeerChange link call conn (some { peer with services := [], progress })
  | walked (finding : Finding) (event : call.event? = some (.discovery conn finding))
      (peer peer' : Peer) (known : link.peers.find? conn = some peer) (exchanges : List Exchange)
      (outcome : Option Outcome) (walk : peer.WalkStep finding exchanges peer' outcome) :
    PeerChange link call conn (some peer')

section

variable {link link' : Link} {call : Call} {exchanges : List Exchange} {response : Response}
  {conn : ConnHandle} {reaction : Reaction}

/-- Asking the host to drop a connection leaves the entries of all others alone. -/
theorem Terminates.find?_cases (h : link.Terminates conn exchanges link' reaction)
    (other : ConnHandle) :
    link'.peers.find? other = link.peers.find? other ∨ link'.peers.find? other = none := by
  cases h with
  | accepted => exact .inl rfl
  | refused why =>
    rw [peers_dropLink, Registry.find?_erase]
    by_cases hother : other = conn
    · exact .inr (if_pos hother)
    · exact .inl (if_neg hother)

/-- A change that is followed by asking the host to drop the connection. -/
theorem PeerChange.of_terminates {middle : Link} {other : ConnHandle}
    (change : PeerChange link call other (middle.peers.find? other))
    (down : middle.Terminates conn exchanges link' reaction) :
    PeerChange link call other (link'.peers.find? other) := by
  rcases down.find?_cases other with h | h
  · rw [h]
    exact change
  · rw [h]
    exact .dropped

/-- A change of the entry of one connection is none of the others'. -/
theorem PeerChange.of_refreshed (peer : Peer) {old : Peer}
    (known : link.peers.find? peer.conn = some old)
    (up : ∀ other, call.event?.bind Event.disconnected? ≠ some other)
    (change : PeerChange link call peer.conn (some peer)) (other : ConnHandle) :
    PeerChange link call other ((link.refreshed peer).peers.find? other) := by
  unfold refreshed
  rw [Registry.find?_put known]
  by_cases hother : other = peer.conn
  · rw [if_pos hother, hother]
    exact change
  · rw [if_neg hother]
    exact .same (up other)

/-- Registering a connection is none of the others'. -/
theorem PeerChange.of_admitted {peers : Registry} {address : Address} {status : Status}
    (success : status.IsSuccess) (added : link.peers.add conn address = .ok peers)
    (event : call.event? = some (.linkEstablished conn address status)) (other : ConnHandle) :
    PeerChange link call other ((link.admitted peers conn address).peers.find? other) := by
  unfold admitted
  obtain ⟨unknown, room, -⟩ := Registry.add_eq_ok_iff.1 added
  rw [Registry.find?_of_add added]
  by_cases hother : other = conn
  · rw [if_pos hother, hother]
    exact .added address (by simp [event, Event.established?, success]) unknown room
  · rw [if_neg hother]
    exact .same (by simp [event, Event.disconnected?])

/-- The turns about the scanner change no entry. -/
theorem ScanStep.peers_eq (h : ScanStep link call exchanges link' response) :
    link'.peers = link.peers := by
  cases h <;> rfl

/-- The turns about the scanner report no connection to be down. -/
theorem ScanStep.not_disconnected (h : ScanStep link call exchanges link' response)
    (conn : ConnHandle) : call.event?.bind Event.disconnected? ≠ some conn := by
  cases h <;> simp [Call.event?, Event.disconnected?]

/-- Subscribing changes no entry. -/
@[simp] theorem peers_subscribed (link : Link) (peer : Peer) :
    (link.subscribed peer).peers = link.peers := by
  unfold subscribed
  split <;> rfl

/-- A finding leaves an entry at its connection. -/
theorem find?_of_walk {finding : Finding} {peer peer' : Peer} {outcome : Option Outcome}
    (known : link.peers.find? conn = some peer)
    (walk : peer.WalkStep finding exchanges peer' outcome) :
    peer'.conn = conn ∧ link.peers.find? peer'.conn = some peer := by
  have hconn : peer'.conn = conn := by rw [walk.conn_eq, Registry.conn_of_find?_eq_some known]
  exact ⟨hconn, hconn ▸ known⟩

/-- The entry of a connection after it was brought up to date. -/
theorem find?_refreshed_self {peer old : Peer} (known : link.peers.find? conn = some old)
    (hconn : peer.conn = conn) : (link.refreshed peer).peers.find? conn = some peer := by
  subst hconn
  exact Registry.find?_put_self known

/-- Bringing an entry up to date registers no connection and drops none. -/
theorem isSome_find?_refreshed (peer : Peer) {old : Peer}
    (known : link.peers.find? peer.conn = some old) (other : ConnHandle) :
    ((link.refreshed peer).peers.find? other).isSome = (link.peers.find? other).isSome := by
  unfold refreshed
  rw [Registry.find?_put known]
  by_cases hsame : other = peer.conn
  · rw [if_pos hsame, hsame, known]
    rfl
  · rw [if_neg hsame]

/-- A finding about a connection changes its entry and no other. -/
theorem PeerChange.of_walk {finding : Finding} {peer peer' : Peer} {outcome : Option Outcome}
    (event : call = .event (.discovery conn finding)) (known : link.peers.find? conn = some peer)
    (walk : peer.WalkStep finding exchanges peer' outcome) (other : ConnHandle) :
    PeerChange link call other ((link.refreshed peer').peers.find? other) := by
  obtain ⟨rfl, -⟩ := find?_of_walk known walk
  subst event
  exact .of_refreshed peer' known (by simp [Call.event?, Event.disconnected?])
    (.walked finding rfl peer peer' known exchanges outcome walk) other

/-- Starting a walk changes the entry of the connection and no other. -/
theorem PeerChange.of_restart {status : Status} {peer : Peer}
    (event : call = .event (.encryptionChange conn status)) (success : status.IsSuccess)
    (known : link.peers.find? conn = some peer) (halted : ¬ peer.progress.InFlight)
    {progress : Progress} (h : progress = .services ∨ progress = .failed) (other : ConnHandle) :
    PeerChange link call other
      ((link.refreshed { peer with services := [], progress }).peers.find? other) := by
  obtain rfl := Registry.conn_of_find?_eq_some known
  subst event
  refine .of_refreshed { peer with services := [], progress } known ?_ ?_ other
  · simp [Call.event?, Event.disconnected?]
  · exact .restarted (Call.encrypted_of_success success peer.conn) peer known halted progress h

/-- **What a turn makes of the entry of a connection.** -/
theorem Step.peerChange (h : Step link call exchanges link' response) (other : ConnHandle) :
    PeerChange link call other (link'.peers.find? other) := by
  cases h with
  | scan step =>
    rw [step.peers_eq]
    exact .same (step.not_disconnected other)
  | ignored event h =>
    refine .same ?_
    cases event <;> first | exact h.elim | simp [Call.event?, Event.disconnected?]
  | writeDenied payload why denied => exact .same (by simp [Call.event?])
  | written payload conn handle _ _ _ _ answer => exact .same (by simp [Call.event?])
  | unregistered conn address status success why full down =>
    exact PeerChange.of_terminates (.same (by simp [Call.event?, Event.disconnected?])) down
  | securing conn address status success peers added =>
    exact PeerChange.of_admitted success added rfl other
  | insecure conn address status success peers added why down =>
    exact PeerChange.of_terminates (PeerChange.of_admitted success added rfl other) down
  | unencrypted conn status failed peer known down =>
    exact PeerChange.of_terminates (.same (by simp [Call.event?, Event.disconnected?])) down
  | walkRunning conn status success peer known running =>
    obtain rfl := Registry.conn_of_find?_eq_some known
    refine .of_refreshed peer known (by simp [Call.event?, Event.disconnected?]) ?_ other
    rw [← known]
    exact .same (by simp [Call.event?, Event.disconnected?])
  | walkStarted conn status success peer known halted =>
    exact PeerChange.of_restart rfl success known halted (.inl rfl) other
  | walkRefused conn status success peer known halted why down =>
    exact PeerChange.of_terminates
      (PeerChange.of_restart rfl success known halted (.inr rfl) other) down
  | disconnect conn reason =>
    rw [peers_dropLink, Registry.find?_erase]
    by_cases hother : other = conn
    · rw [if_pos hother]
      exact .dropped
    · rw [if_neg hother]
      refine .same fun heq => hother ?_
      simpa [Call.event?, Event.disconnected?] using heq.symm
  | pairingIgnored conn unknown => exact .same (by simp [Call.event?, Event.disconnected?])
  | pairingRetried conn peer known answer =>
    exact .same (by simp [Call.event?, Event.disconnected?])
  | walkGoesOn conn finding peer peer' known exchanges walk =>
    exact PeerChange.of_walk rfl known walk other
  | walkComplete conn finding peer peer' known exchanges writes walk count subscription =>
    rw [peers_subscribed]
    exact PeerChange.of_walk rfl known walk other
  | walkFailed conn finding peer peer' known exchanges why walk down =>
    exact PeerChange.of_terminates (PeerChange.of_walk rfl known walk other) down

/-! ## The camera -/

/-- What a turn can make of the camera. -/
inductive CameraChange (link : Link) (call : Call) (link' : Link) : Camera → Prop where
  | same (uncompleted : ∀ conn, link.camera.conn = some conn →
      link'.progress? conn = some .complete → link.progress? conn = some .complete) :
    CameraChange link call link' link.camera
  | lost : CameraChange link call link' {}
  | gained (conn : ConnHandle) (address : Address)
      (up : call.event?.bind Event.established? = some conn)
      (unknown : link.peers.find? conn = none) :
    CameraChange link call link' { conn := some conn, address := some address }
  | resolved (conn : ConnHandle) (finding : Finding) (mine : link.camera.conn = some conn)
      (peer : Peer) (known : link.peers.find? conn = some peer) (running : peer.progress.InFlight)
      (complete : link'.progress? conn = some .complete) :
    CameraChange link call link'
      { link.camera with commandHandle := link'.commandHandle? conn }

/-- Asking the host to drop a connection keeps the camera or loses it. -/
theorem Terminates.camera_cases (h : link.Terminates conn exchanges link' reaction) :
    link'.camera = link.camera ∨ link'.camera = {} := by
  cases h with
  | accepted => exact .inl rfl
  | refused why =>
    rw [camera_dropLink]
    by_cases howns : link.Owns conn
    · exact .inr (if_pos howns)
    · exact .inl (if_neg howns)

/-- Only a finding about a connection can complete its walk. -/
theorem PeerChange.uncompleted {after : Option Peer} (change : PeerChange link call conn after)
    (other : ∀ finding, call.event? ≠ some (.discovery conn finding))
    (complete : after.map (·.progress) = some .complete) :
    link.progress? conn = some .complete := by
  cases change with
  | same _ => exact complete
  | dropped => cases complete
  | added address _ _ _ => cases complete
  | restarted _ peer _ _ progress h =>
    rcases h with rfl | rfl <;> cases complete
  | walked finding event _ _ _ _ _ _ => exact absurd event (other finding)

/-- The progress of a connection after the entry of one was brought up to date. -/
theorem progress?_refreshed {peer old : Peer} (known : link.peers.find? peer.conn = some old)
    (conn : ConnHandle) :
    (link.refreshed peer).progress? conn =
      if conn = peer.conn then some peer.progress else link.progress? conn := by
  unfold progress? refreshed
  rw [Registry.find?_put known]
  by_cases hconn : conn = peer.conn
  · rw [if_pos hconn, if_pos hconn]
    rfl
  · rw [if_neg hconn, if_neg hconn]

/-- The progress of a connection after its entry was brought up to date. -/
theorem progress?_refreshed_self {peer old : Peer} (known : link.peers.find? conn = some old)
    (hconn : peer.conn = conn) : (link.refreshed peer).progress? conn = some peer.progress := by
  subst hconn
  rw [progress?_refreshed known, if_pos rfl]

/-- A walk that does not report its completion is not complete, unless it was before. -/
theorem uncompleted_of_walk {finding : Finding} {peer peer' : Peer} {outcome : Option Outcome}
    (known : link.peers.find? conn = some peer)
    (walk : peer.WalkStep finding exchanges peer' outcome) (hother : outcome ≠ some .complete)
    (other : ConnHandle) (complete : (link.refreshed peer').progress? other = some .complete) :
    link.progress? other = some .complete := by
  obtain ⟨rfl, -⟩ := find?_of_walk known walk
  rw [progress?_refreshed known] at complete
  by_cases hsame : other = peer'.conn
  · rw [if_pos hsame] at complete
    by_cases running : peer.progress.InFlight
    · have hreports := walk.reports running
      rw [Option.some.inj complete] at hreports
      cases outcome with
      | none => exact hreports.elim
      | some outcome =>
        cases outcome with
        | complete => exact absurd rfl hother
        | failed why => cases hreports
    · obtain ⟨-, rfl, -⟩ := walk.of_not_inFlight running
      unfold progress?
      rw [hsame, known]
      exact complete
  · rwa [if_neg hsame] at complete

/-- Dropping a connection completes no walk. -/
theorem Terminates.uncompleted (h : link.Terminates conn exchanges link' reaction)
    (other : ConnHandle) (complete : link'.progress? other = some .complete) :
    link.progress? other = some .complete := by
  unfold progress? at complete ⊢
  rcases h.find?_cases other with heq | heq
  · rwa [heq] at complete
  · rw [heq] at complete
    cases complete

/-- A change of the camera in a turn that is not about its walk. -/
theorem CameraChange.of_terminates {middle : Link}
    (down : middle.Terminates conn exchanges link' reaction)
    (kept : middle.camera = link.camera)
    (uncompleted : ∀ other, middle.progress? other = some .complete →
      link.progress? other = some .complete) :
    CameraChange link call link' link'.camera := by
  rcases down.camera_cases with h | h
  · rw [h, kept]
    exact .same fun other _ complete => uncompleted other (down.uncompleted other complete)
  · rw [h]
    exact .lost

/-- The turns about the scanner leave the camera alone. -/
theorem ScanStep.camera_eq (h : ScanStep link call exchanges link' response) :
    link'.camera = link.camera := by
  cases h <;> rfl

/-- **What a turn makes of the camera.** -/
theorem Step.cameraChange (h : Step link call exchanges link' response) :
    CameraChange link call link' link'.camera := by
  have hchange := h.peerChange
  cases h with
  | scan step =>
    rw [step.camera_eq]
    refine .same fun conn _ complete => ?_
    unfold progress? at complete ⊢
    rwa [step.peers_eq] at complete
  | ignored event h => exact .same fun conn _ complete => complete
  | writeDenied payload why denied => exact .same fun conn _ complete => complete
  | written payload conn handle _ _ _ _ answer => exact .same fun conn _ complete => complete
  | unregistered conn address status success why full down =>
    exact .of_terminates down rfl fun _ complete => complete
  | securing conn address status success peers added =>
    obtain ⟨unknown, -, -⟩ := Registry.add_eq_ok_iff.1 added
    exact .gained conn address (Call.established_of_success success conn address) unknown
  | insecure conn address status success peers added why down =>
    obtain ⟨unknown, -, -⟩ := Registry.add_eq_ok_iff.1 added
    rcases down.camera_cases with h | h
    · rw [h]
      exact .gained conn address (Call.established_of_success success conn address) unknown
    · rw [h]
      exact .lost
  | unencrypted conn status failed peer known down =>
    exact .of_terminates down rfl fun _ complete => complete
  | walkRunning conn status success peer known running =>
    exact .same fun other _ complete =>
      (hchange other).uncompleted (by simp [Call.event?]) complete
  | walkStarted conn status success peer known halted =>
    exact .same fun other _ complete =>
      (hchange other).uncompleted (by simp [Call.event?]) complete
  | walkRefused conn status success peer known halted why down =>
    refine .of_terminates down rfl fun other complete => ?_
    have restart := PeerChange.of_restart rfl success known halted (.inr rfl) other
    exact restart.uncompleted (by simp [Call.event?]) complete
  | disconnect conn reason =>
    rw [camera_dropLink]
    by_cases howns : link.Owns conn
    · rw [if_pos howns]
      exact .lost
    · rw [if_neg howns]
      exact .same fun other _ complete =>
        (hchange other).uncompleted (by simp [Call.event?]) complete
  | pairingIgnored conn unknown => exact .same fun conn _ complete => complete
  | pairingRetried conn peer known answer => exact .same fun conn _ complete => complete
  | walkGoesOn conn finding peer peer' known exchanges walk =>
    exact .same fun other _ complete => uncompleted_of_walk known walk (by simp) other complete
  | walkComplete conn finding peer peer' known exchanges writes walk count subscription =>
    obtain ⟨hconn, hknown⟩ := find?_of_walk known walk
    have running : peer.progress.InFlight := walk.inFlight_of_outcome
    have hfound : ((link.refreshed peer').subscribed peer').peers.find? conn = some peer' := by
      rw [peers_subscribed, ← hconn]
      exact Registry.find?_put_self hknown
    by_cases mine : link.camera.conn = some conn
    · have hcamera : ((link.refreshed peer').subscribed peer').camera =
          { link.camera with
            commandHandle := ((link.refreshed peer').subscribed peer').commandHandle? conn } := by
        unfold commandHandle?
        rw [hfound]
        unfold subscribed
        rw [if_pos (hconn.symm ▸ mine)]
        rfl
      rw [hcamera]
      refine .resolved conn finding mine peer known running ?_
      unfold progress?
      rw [hfound]
      exact congrArg some (walk.reports running)
    · have hcamera : ((link.refreshed peer').subscribed peer').camera = link.camera := by
        unfold subscribed
        rw [if_neg (hconn.symm ▸ mine)]
        rfl
      rw [hcamera]
      refine .same fun other hother complete => ?_
      have hne : other ≠ conn := fun heq => mine (heq ▸ hother)
      refine (hchange other).uncompleted (fun finding hevent => hne ?_) complete
      cases hevent
      rfl
  | walkFailed conn finding peer peer' known exchanges why walk down =>
    exact .of_terminates down rfl (uncompleted_of_walk known walk (by simp))

/-! ## Camera and registry -/

/-- The connection of the camera is registered. -/
def Homed (link : Link) : Prop :=
  ∀ conn, link.camera.conn = some conn → (link.peers.find? conn).isSome

theorem homed_new (scanner : Scanner) : (new scanner).Homed := by
  intro conn hconn
  cases hconn

/-- A connection is dropped together with the camera that is at it. -/
theorem Terminates.homed (h : link.Terminates conn exchanges link' reaction)
    (homed : link.Homed) : link'.Homed := by
  cases h with
  | accepted => exact homed
  | refused why =>
    intro other hother
    rw [camera_dropLink] at hother
    by_cases howns : link.Owns conn
    · rw [if_pos howns] at hother
      cases hother
    · rw [if_neg howns] at hother
      have hne : other ≠ conn := fun heq => howns (.inl (heq ▸ hother))
      rw [peers_dropLink, Registry.find?_erase, if_neg hne]
      exact homed other hother

/-- A connection is registered before it becomes the camera's. -/
theorem homed_admitted {peers : Registry} {address : Address}
    (added : link.peers.add conn address = .ok peers) :
    (link.admitted peers conn address).Homed := by
  intro other hother
  obtain rfl : conn = other := Option.some.inj hother
  change (peers.find? conn).isSome
  rw [Registry.find?_of_add added, if_pos rfl]
  rfl

/-- Bringing an entry up to date drops none. -/
theorem homed_refreshed (peer : Peer) {old : Peer} (known : link.peers.find? peer.conn = some old)
    (homed : link.Homed) : (link.refreshed peer).Homed := by
  intro other hother
  rw [isSome_find?_refreshed peer known]
  exact homed other hother

/-- The connection of the camera stays the same when a walk is over. -/
@[simp] theorem conn_subscribed (link : Link) (peer : Peer) :
    (link.subscribed peer).camera.conn = link.camera.conn := by
  unfold subscribed
  split <;> rfl

/-- **In every turn the connection of the camera stays registered.** -/
theorem Step.homed (h : Step link call exchanges link' response) (homed : link.Homed) :
    link'.Homed := by
  cases h with
  | scan step =>
    intro conn hconn
    rw [step.camera_eq] at hconn
    rw [step.peers_eq]
    exact homed conn hconn
  | ignored event h => exact homed
  | writeDenied payload why denied => exact homed
  | written payload conn handle _ _ _ _ answer => exact homed
  | unregistered conn address status success why full down => exact down.homed homed
  | securing conn address status success peers added => exact homed_admitted added
  | insecure conn address status success peers added why down =>
    exact down.homed (homed_admitted added)
  | unencrypted conn status failed peer known down => exact down.homed homed
  | walkRunning conn status success peer known running =>
    obtain rfl := Registry.conn_of_find?_eq_some known
    exact homed_refreshed peer known homed
  | walkStarted conn status success peer known halted =>
    obtain rfl := Registry.conn_of_find?_eq_some known
    exact homed_refreshed { peer with services := [], progress := .services } known homed
  | walkRefused conn status success peer known halted why down =>
    obtain rfl := Registry.conn_of_find?_eq_some known
    exact down.homed
      (homed_refreshed { peer with services := [], progress := .failed } known homed)
  | disconnect conn reason =>
    exact (Terminates.refused .busy).homed homed
  | pairingIgnored conn unknown => exact homed
  | pairingRetried conn peer known answer => exact homed
  | walkGoesOn conn finding peer peer' known exchanges walk =>
    exact homed_refreshed peer' (find?_of_walk known walk).2 homed
  | walkComplete conn finding peer peer' known exchanges writes walk count subscription =>
    intro other hother
    rw [conn_subscribed] at hother
    rw [peers_subscribed]
    exact homed_refreshed peer' (find?_of_walk known walk).2 homed other hother
  | walkFailed conn finding peer peer' known exchanges why walk down =>
    exact down.homed (homed_refreshed peer' (find?_of_walk known walk).2 homed)

/-- In every run the connection of the camera is registered. -/
theorem Run.homed {scanner : Scanner} {history : List Turn}
    (run : Run (new scanner) history link) : link.Homed :=
  run.invariant (fun _ link => link.Homed) (homed_new scanner)
    fun _ turn homed => turn.step.homed homed

/-! ## Requests about connections -/

/-- Dropping a connection asks for nothing else. -/
theorem Terminates.request_eq (h : link.Terminates conn exchanges link' reaction) {x : Exchange}
    (hx : x ∈ exchanges) : x.request = .terminate conn Settings.terminateReason := by
  cases h with
  | accepted =>
    obtain rfl := List.mem_singleton.1 hx
    rfl
  | refused why =>
    obtain rfl := List.mem_singleton.1 hx
    rfl

/-- The turns about the scanner make no request about a connection. -/
theorem ScanStep.request_conn (h : ScanStep link call exchanges link' response) {x : Exchange}
    (hx : x ∈ exchanges) : x.request.conn? = none := by
  cases h with
  | startDeferred _ | startRunning _ _ | stopIdle _ | reportIgnored _ _ | scanComplete _
  | connectFailed _ _ _ _ | restartDeferred _ | restartPointless _ _ => cases hx
  | startAccepted _ _ | startRefused _ _ _ | stopAccepted _ | stopRefused _ _
  | reportKept _ _ _ _ _ | restartAccepted _ _ _ | restartRefused _ _ _ _ =>
    obtain rfl := List.mem_singleton.1 hx
    rfl
  | connectAccepted _ _ _ _ | connectRefused _ _ _ _ _ =>
    simp only [List.mem_cons, List.not_mem_nil, or_false] at hx
    rcases hx with rfl | rfl <;> rfl

/-- Nothing is asked for when a connection is reported to be down. -/
theorem Step.exchanges_eq_nil (h : Step link call exchanges link' response)
    (down : call.event?.bind Event.disconnected? = some conn) : exchanges = [] := by
  cases h with
  | disconnect other reason => rfl
  | scan step => exact absurd down (step.not_disconnected conn)
  | ignored event h => rfl
  | _ => simp [Call.event?, Event.disconnected?] at down

/-- What can lie behind a request that names a connection. -/
inductive Cause (link : Link) (call : Call) (conn : ConnHandle) : Request → Prop where
  /-- The connection was just reported to be up. -/
  | established (up : call.event?.bind Event.established? = some conn) (request : Request)
      (outside : ¬ request.IsGatt) : Cause link call conn request
  /-- The connection is registered, and something went wrong on it. -/
  | dropping (known : (link.peers.find? conn).isSome) (reason : UInt8) :
    Cause link call conn (.terminate conn reason)
  /-- The connection is registered, and was just reported to be encrypted. -/
  | encrypted (known : (link.peers.find? conn).isSome)
      (encrypted : call.event?.bind Event.encrypted? = some conn) :
    Cause link call conn (.discoverServices conn)
  /-- The walk of the connection is under way. -/
  | walk (peer : Peer) (known : link.peers.find? conn = some peer)
      (running : peer.progress.InFlight) (request : Request)
      (asks : request.kind ∈ [.discoverCharacteristics, .discoverDescriptors, .write]) :
    Cause link call conn request
  /-- The camera is at the connection, and its handle for commands is known. -/
  | command (handle : AttHandle) (payload : Bytes) (mine : link.camera.conn = some conn)
      (resolved : link.camera.commandHandle = some handle) :
    Cause link call conn (.writeNoResponse conn handle payload)

/-- The host is asked to drop a connection that is registered, or was just reported to be up. -/
theorem Cause.of_terminates {middle : Link} {other : ConnHandle}
    (behind : call.event?.bind Event.established? = some other ∨ (link.peers.find? other).isSome)
    (down : middle.Terminates other exchanges link' reaction) {x : Exchange}
    (hx : x ∈ exchanges) (hconn : x.request.conn? = some conn) :
    Cause link call conn x.request := by
  rw [down.request_eq hx] at hconn ⊢
  obtain rfl : other = conn := Option.some.inj hconn
  rcases behind with up | known
  · exact .established up _ (Request.not_isGatt_terminate other _)
  · exact .dropping known _

/-- What a walk asks for is asked for because it is under way. -/
theorem Cause.of_walk {finding : Finding} {peer peer' : Peer} {outcome : Option Outcome}
    {other : ConnHandle} (known : link.peers.find? other = some peer)
    (walk : peer.WalkStep finding exchanges peer' outcome) {x : Exchange} (hx : x ∈ exchanges)
    (hconn : x.request.conn? = some conn) : Cause link call conn x.request := by
  obtain ⟨running, hrequest⟩ := walk.request_conn hx
  obtain rfl : peer.conn = conn := Option.some.inj (hrequest.symm.trans hconn)
  have hknown : link.peers.find? peer.conn = some peer :=
    Registry.conn_of_find?_eq_some known ▸ known
  refine .walk peer hknown running x.request ?_
  rcases walk.request_kind hx with hkind | hkind
  · simp [hkind]
  · simp [hkind]

/-- **What lies behind a request that names a connection.** -/
theorem Step.cause (h : Step link call exchanges link' response) {x : Exchange}
    (hx : x ∈ exchanges) (hconn : x.request.conn? = some conn) :
    Cause link call conn x.request := by
  cases h with
  | scan step =>
    rw [step.request_conn hx] at hconn
    cases hconn
  | ignored event h => cases hx
  | writeDenied payload why denied => cases hx
  | written payload other handle hother hhandle _ _ answer =>
    obtain rfl := List.mem_singleton.1 hx
    obtain rfl : other = conn := Option.some.inj hconn
    exact .command handle payload hother hhandle
  | unregistered other address status success why full down =>
    exact .of_terminates (.inl (Call.established_of_success success other address)) down hx hconn
  | securing other address status success peers added =>
    obtain rfl := List.mem_singleton.1 hx
    obtain rfl : other = conn := Option.some.inj hconn
    exact .established (Call.established_of_success success other address) _
      (Request.not_isGatt_secure other)
  | insecure other address status success peers added why down =>
    have up := Call.established_of_success success other address
    rcases List.mem_cons.1 hx with rfl | hx
    · obtain rfl : other = conn := Option.some.inj hconn
      exact .established up _ (Request.not_isGatt_secure other)
    · exact .of_terminates (.inl up) down hx hconn
  | unencrypted other status failed peer known down =>
    exact .of_terminates (.inr (by rw [known]; rfl)) down hx hconn
  | walkRunning other status success peer known running => cases hx
  | walkStarted other status success peer known halted =>
    obtain rfl := List.mem_singleton.1 hx
    obtain rfl : other = conn := Option.some.inj hconn
    exact .encrypted (by rw [known]; rfl) (Call.encrypted_of_success success other)
  | walkRefused other status success peer known halted why down =>
    rcases List.mem_cons.1 hx with rfl | hx
    · obtain rfl : other = conn := Option.some.inj hconn
      exact .encrypted (by rw [known]; rfl) (Call.encrypted_of_success success other)
    · exact .of_terminates (.inr (by rw [known]; rfl)) down hx hconn
  | disconnect other reason => cases hx
  | pairingIgnored other unknown => cases hx
  | pairingRetried other peer known answer =>
    obtain rfl := List.mem_singleton.1 hx
    cases hconn
  | walkGoesOn other finding peer peer' known exchanges walk => exact .of_walk known walk hx hconn
  | walkComplete other finding peer peer' known exchanges writes walk count subscription =>
    rcases List.mem_append.1 hx with hx | hx
    · exact .of_walk known walk hx hconn
    · obtain ⟨handle, data, hrequest⟩ := Peer.subscribeAll_request subscription x hx
      have hother : peer'.conn = other := (find?_of_walk known walk).1
      rw [hrequest, Request.conn?, hother] at hconn
      obtain rfl : other = conn := Option.some.inj hconn
      exact .walk peer known walk.inFlight_of_outcome _ (by simp [hrequest, Request.kind])
  | walkFailed other finding peer peer' known exchanges why walk down =>
    rcases List.mem_append.1 hx with hx | hx
    · exact .of_walk known walk hx hconn
    · exact .of_terminates (.inr (by rw [known]; rfl)) down hx hconn

/-- What can lie behind a request that names a connection: that the connection was just reported to
be up, and then the request is not to its database; or that it is registered.  Behind a request to
its database there is encryption, a walk that is under way, or the camera's handle for commands. -/
theorem Step.request_cases (h : Step link call exchanges link' response) (homed : link.Homed)
    {x : Exchange} (hx : x ∈ exchanges) (hconn : x.request.conn? = some conn) :
    call.event?.bind Event.established? = some conn ∧ ¬ x.request.IsGatt ∨
      (link.peers.find? conn).isSome ∧
        (x.request.IsGatt → call.event?.bind Event.encrypted? = some conn ∨
          (∃ peer, link.peers.find? conn = some peer ∧ peer.progress.InFlight) ∨
          link.camera.conn = some conn ∧ link.camera.commandHandle.isSome) := by
  have cause := h.cause hx hconn
  generalize x.request = request at cause ⊢
  cases cause with
  | established up request outside => exact .inl ⟨up, outside⟩
  | dropping known reason =>
    exact .inr ⟨known, fun gatt => absurd gatt (Request.not_isGatt_terminate conn reason)⟩
  | encrypted known encrypted => exact .inr ⟨known, fun _ => .inl encrypted⟩
  | walk peer known running request asks =>
    exact .inr ⟨by rw [known]; rfl, fun _ => .inr (.inl ⟨peer, known, running⟩)⟩
  | command handle payload mine resolved =>
    exact .inr ⟨homed conn mine, fun _ => .inr (.inr ⟨mine, by rw [resolved]; rfl⟩)⟩

end

end Link

end CameraCentral
