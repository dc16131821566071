import CameraCentral.Camera.Subscription
import CameraCentral.Link.Basic

/-!
# How the link goes on

Every event takes the link one step further and leaves a reaction to whoever reported it.

A camera that is seen while scanning is connected to, the connection is encrypted, the database is
walked, and the camera is subscribed to.  Whatever goes wrong on the way ends in `Link.terminate`:
the host is asked to drop the connection, and the link is tidied up when the host reports that it
is down, or at once if the host refuses.  Tidying up is `Link.dropLink`; it lands in the stage
`idle` and leaves it to the scanner whether to look for a camera again.
-/

namespace CameraCentral

namespace Link

/-! ## Losing a connection -/

/-- A connection belongs to the camera link if it is the camera's.  While a connection to a camera
is being made, a connection that was never registered is taken for it. -/
def Owns (link : Link) (conn : ConnHandle) : Prop :=
  link.camera.conn = some conn ∨ ¬ link.camera.IsConnected ∧ link.stage = .connecting

instance (link : Link) (conn : ConnHandle) : Decidable (link.Owns conn) :=
  inferInstanceAs (Decidable
    (link.camera.conn = some conn ∨ ¬ link.camera.IsConnected ∧ link.stage = .connecting))

/-- Forgets a connection that is down.  One that is neither registered nor the link's own changes
nothing. -/
def dropLink (link : Link) (conn : ConnHandle) : Link × Reaction :=
  if (link.peers.find? conn).isSome ∨ link.Owns conn then
    ({ link with
        stage := .idle
        peers := link.peers.erase conn
        camera := if link.Owns conn then {} else link.camera },
      link.scanner.restartReaction)
  else (link, .nothing)

/-- Asks the host to drop a connection, and forgets the connection at once if the host refuses. -/
def terminate (link : Link) (conn : ConnHandle) : Dialogue (Link × Reaction) :=
  .ask (.terminate conn Settings.terminateReason) fun
    | .accepted => .done (link, .nothing)
    | .refused _ => .done (link.dropLink conn)

/-! ## Finding a camera -/

/-- A device advertises itself.  If it is a camera and the link is scanning for one, the scan is
broken off and a connection is asked for: the radio cannot do both at once. -/
def onAdvertisement (link : Link) (report : Advert.Report) : Dialogue (Link × Reaction) :=
  if link.scanner.running ∧ ¬ link.Busy ∧ report.IsCamera then do
    match ← (link.scanner.record report).1.cancel with
    | (scanner, .error _) => return ({ link with scanner }, .nothing)
    | (scanner, .ok ()) =>
      match ← Dialogue.request (.connect report.address Settings.connectTimeoutMs) with
      | .accepted => return ({ link with scanner, stage := .connecting }, .nothing)
      | .refused _ => return ({ link with scanner, stage := .idle }, scanner.restartReaction)
  else .done (link, .nothing)

/-- A scan ended by itself. -/
def onScanComplete (link : Link) : Link where
  stage := if link.stage = .scanning then .idle else link.stage
  scanner := link.scanner.complete
  peers := link.peers
  camera := link.camera

/-- The pause before scanning resumes is over. -/
def onScanRestartDue (link : Link) : Dialogue Link :=
  if link.Busy then .done link
  else do
    let scanner ← link.scanner.resume
    let stage := if scanner.running then .scanning else link.stage
    return { link with scanner, stage }

/-! ## Bringing a connection up -/

/-- A connection attempt is over.  A connection that is up is registered and becomes the camera's,
and encryption is asked for. -/
def onLinkEstablished (link : Link) (conn : ConnHandle) (address : Address) (status : Status) :
    Dialogue (Link × Reaction) :=
  if status.IsSuccess then
    match link.peers.add conn address with
    | .error _ => link.terminate conn
    | .ok peers =>
      let link := { link with
        stage := .linkEstablished
        peers
        camera := { conn := some conn, address := some address } }
      .ask (.secure conn) fun
        | .accepted => .done ({ link with stage := .securing }, .nothing)
        | .refused _ => link.terminate conn
  else
    let stage := if link.camera.IsConnected then link.stage else .idle
    .done ({ link with stage }, link.scanner.restartReaction)

/-- The connection of a registered peer is encrypted, or could not be.  On an encrypted connection
the walk through the database starts. -/
def onEncryptionChange (link : Link) (conn : ConnHandle) (status : Status) :
    Dialogue (Link × Reaction) :=
  match link.peers.find? conn with
  | none => .done (link, .nothing)
  | some _ =>
    if status.IsSuccess then do
      match ← link.peers.discoverAll conn with
      | (peers, .ok ()) => return ({ link with peers, stage := .serviceDiscovery }, .nothing)
      | (peers, .error .discoveryInProgress) => return ({ link with peers }, .nothing)
      | (peers, .error _) => terminate { link with peers } conn
    else link.terminate conn

/-- The link after the database of a peer was walked and subscribed to.  If the peer is the camera,
commands can be written as soon as it is known where to. -/
def subscribed (link : Link) (peer : Peer) : Link :=
  if link.camera.conn = some peer.conn then
    { link with
      stage := if peer.commandHandle?.isSome then .ready else .subscribed
      camera := { link.camera with commandHandle := peer.commandHandle? } }
  else { link with stage := .subscribed }

/-- The database of a peer has been walked. -/
def onWalkComplete (link : Link) (conn : ConnHandle) : Dialogue (Link × Reaction) :=
  match link.peers.find? conn with
  | none => .done (link, .nothing)
  | some peer => do
    let _ ← peer.subscribeAll
    return (link.subscribed peer, .nothing)

/-- The discovery of a peer's database found something. -/
def onFinding (link : Link) (conn : ConnHandle) (finding : Finding) :
    Dialogue (Link × Reaction) := do
  match ← link.peers.onFinding conn finding with
  | (peers, none) => return ({ link with peers }, .nothing)
  | (peers, some .complete) => onWalkComplete { link with peers } conn
  | (peers, some (.failed _)) => terminate { link with peers } conn

/-- A bonded peer asks to be paired again.  Its old bond is of no use any more, so it is forgotten
and the peer may pair. -/
def onRepeatPairing (link : Link) (conn : ConnHandle) : Dialogue Reaction :=
  match link.peers.find? conn with
  | none => .done .ignorePairing
  | some peer => .ask (.forgetBond peer.address) fun _ => .done .retryPairing

/-! ## All events -/

/-- Takes the link one event further. -/
def onEvent (link : Link) : Event → Dialogue (Link × Reaction)
  | .advertisement report => link.onAdvertisement report
  | .scanComplete _ => .done (link.onScanComplete, .nothing)
  | .linkEstablished conn address status => link.onLinkEstablished conn address status
  | .encryptionChange conn status => link.onEncryptionChange conn status
  | .disconnect conn _ => .done (link.dropLink conn)
  | .repeatPairing conn => (link, ·) <$> link.onRepeatPairing conn
  | .discovery conn finding => link.onFinding conn finding
  | .scanRestartDue => (·, .nothing) <$> link.onScanRestartDue
  | .mtuChanged _ _ | .writeComplete _ _ _ | .notification _ _ _ _ => .done (link, .nothing)

end Link

end CameraCentral
