import CameraCentral.Proofs.Host.Lockstep
import CameraCentral.Proofs.Link.Traffic
import CameraCentral.Proofs.Peer.InFull

/-!
# The form of identifiers does not matter

A host reports identifiers in one form or the other, and the link files what it is given.  Suppose
that the same happens twice, except that some identifiers are reported in the other form.  Then the
link does the same both times: it makes the same requests, gives the same responses and goes through
the same stages, and whatever is looked up comes to the same.

This is not to be had by looking at one run.  The two registries differ, and with them everything
that goes by what is filed: which service is the camera's, where its client configurations are and
where commands are written.  But all operations go along with writing identifiers in full
(`Call.dialogue_inFull`), and in full there is only one form.  So the two runs are in lockstep, and
nothing is asked of the host except that it answers the same requests alike.
-/

namespace CameraCentral

namespace Link

/-- A link with all identifiers of its peers in full. -/
def inFull (link : Link) : Link := { link with peers := link.peers.inFull }

/-- The link of a result in full. -/
def doneInFull {α : Type} (done : Link × α) : Link × α := (done.1.inFull, done.2)

variable (link : Link) (conn : ConnHandle)

@[simp] theorem peers_inFull : link.inFull.peers = link.peers.inFull := rfl

@[simp] theorem camera_inFull : link.inFull.camera = link.camera := rfl

/-! ## Losing a connection -/

/-- A connection is forgotten in full as it is forgotten. -/
theorem dropLink_inFull : link.inFull.dropLink conn = doneInFull (link.dropLink conn) := by
  unfold dropLink
  rw [peers_inFull, Registry.find?_inFull, Option.isSome_map, Registry.erase_inFull]
  by_cases ours : (link.peers.find? conn).isSome ∨ link.Owns conn
  · have ours' : (link.peers.find? conn).isSome ∨ link.inFull.Owns conn := ours
    rw [if_pos ours, if_pos ours']
    rfl
  · have ours' : ¬ ((link.peers.find? conn).isSome ∨ link.inFull.Owns conn) := ours
    rw [if_neg ours, if_neg ours']
    rfl

/-- The host is asked to drop a connection in full as it is asked. -/
theorem terminate_inFull : link.inFull.terminate conn = doneInFull <$> link.terminate conn := by
  unfold terminate
  rw [Dialogue.map_ask]
  exact Dialogue.ask_congr rfl fun _ => congrArg Dialogue.done (link.dropLink_inFull conn)

/-! ## The scanner -/

/-- A scan is started in full as it is started. -/
theorem startScan_inFull : link.inFull.startScan = doneInFull <$> link.startScan := by
  unfold startScan
  by_cases busy : link.Busy
  · rw [if_pos busy, if_pos (show link.inFull.Busy from busy)]
    rfl
  · rw [if_neg busy, if_neg (show ¬ link.inFull.Busy from busy), map_bind]
    apply bind_congr
    rintro ⟨scanner, result⟩
    cases result with
    | ok _ => rfl
    | error why => rfl

/-- A scan is stopped in full as it is stopped. -/
theorem stopScan_inFull : link.inFull.stopScan = doneInFull <$> link.stopScan := by
  unfold stopScan
  rw [map_bind]
  apply bind_congr
  rintro ⟨scanner, result⟩
  cases result with
  | ok _ => rfl
  | error why => rfl

/-- A device is noticed in full as it is noticed. -/
theorem onAdvertisement_inFull (report : Advert.Report) :
    link.inFull.onAdvertisement report = doneInFull <$> link.onAdvertisement report := by
  unfold onAdvertisement
  by_cases seen : link.scanner.running ∧ ¬ link.Busy ∧ report.IsCamera
  · have seen' : link.inFull.scanner.running ∧ ¬ link.inFull.Busy ∧ report.IsCamera := seen
    rw [if_pos seen, if_pos seen', map_bind]
    apply bind_congr
    rintro ⟨scanner, result⟩
    cases result with
    | error why => rfl
    | ok _ =>
      exact Dialogue.ask_congr rfl fun _ => rfl
  · have seen' : ¬ (link.inFull.scanner.running ∧ ¬ link.inFull.Busy ∧ report.IsCamera) := seen
    rw [if_neg seen, if_neg seen']
    rfl

/-- Scanning resumes in full as it resumes. -/
theorem onScanRestartDue_inFull :
    link.inFull.onScanRestartDue = inFull <$> link.onScanRestartDue := by
  unfold onScanRestartDue
  by_cases busy : link.Busy
  · rw [if_pos busy, if_pos (show link.inFull.Busy from busy)]
    rfl
  · rw [if_neg busy, if_neg (show ¬ link.inFull.Busy from busy), map_bind]
    rfl

/-! ## Connections -/

/-- A connection comes up in full as it comes up. -/
theorem onLinkEstablished_inFull (address : Address) (status : Status) :
    link.inFull.onLinkEstablished conn address status =
      doneInFull <$> link.onLinkEstablished conn address status := by
  unfold onLinkEstablished
  by_cases success : status.IsSuccess
  · rw [if_pos success, if_pos success, peers_inFull, Registry.add_inFull]
    cases link.peers.add conn address with
    | error why => exact link.terminate_inFull conn
    | ok peers =>
      simp only [Except.map, Dialogue.map_ask]
      have up := terminate_inFull { link with
        stage := .linkEstablished
        peers
        camera := { conn := some conn, address := some address } } conn
      exact Dialogue.ask_congr rfl fun _ => up
  · rw [if_neg success, if_neg success]
    rfl

/-- A connection is encrypted in full as it is encrypted. -/
theorem onEncryptionChange_inFull (status : Status) :
    link.inFull.onEncryptionChange conn status =
      doneInFull <$> link.onEncryptionChange conn status := by
  unfold onEncryptionChange
  rw [peers_inFull, Registry.find?_inFull]
  cases link.peers.find? conn with
  | none => rfl
  | some peer =>
    simp only [Option.map_some]
    by_cases success : status.IsSuccess
    · rw [if_pos success, if_pos success, Registry.discoverAll_inFull, bind_map_left, map_bind]
      apply bind_congr
      rintro ⟨peers, result⟩
      cases result with
      | ok _ => rfl
      | error why =>
        cases why with
        | discoveryInProgress => rfl
        | _ => exact terminate_inFull { link with peers } conn
    · rw [if_neg success, if_neg success]
      exact link.terminate_inFull conn

/-- The camera takes the handle for commands over in full as it takes it over. -/
theorem subscribed_inFull (peer : Peer) :
    link.inFull.subscribed peer.inFull = (link.subscribed peer).inFull := by
  unfold subscribed
  rw [Peer.commandHandle?_inFull, Peer.conn_inFull, camera_inFull]
  by_cases mine : link.camera.conn = some peer.conn
  · rw [if_pos mine, if_pos mine]
    rfl
  · rw [if_neg mine, if_neg mine]
    rfl

/-- A walk is completed in full as it is completed. -/
theorem onWalkComplete_inFull :
    link.inFull.onWalkComplete conn = doneInFull <$> link.onWalkComplete conn := by
  unfold onWalkComplete
  rw [peers_inFull, Registry.find?_inFull]
  cases link.peers.find? conn with
  | none => rfl
  | some peer =>
    simp only [Option.map_some, Peer.subscribeAll_inFull, subscribed_inFull, map_bind]
    rfl

/-- The link takes a finding in full as it takes it. -/
theorem onFinding_inFull (finding : Finding) :
    link.inFull.onFinding conn finding.inFull = doneInFull <$> link.onFinding conn finding := by
  unfold onFinding
  rw [peers_inFull, Registry.onFinding_inFull, bind_map_left, map_bind]
  apply bind_congr
  rintro ⟨peers, outcome⟩
  cases outcome with
  | none => rfl
  | some outcome =>
    cases outcome with
    | complete => exact onWalkComplete_inFull { link with peers } conn
    | failed why => exact terminate_inFull { link with peers } conn

/-- A peer may pair again in full as it may. -/
theorem onRepeatPairing_inFull : link.inFull.onRepeatPairing conn = link.onRepeatPairing conn := by
  unfold onRepeatPairing
  rw [peers_inFull, Registry.find?_inFull]
  cases link.peers.find? conn with
  | none => rfl
  | some peer => rfl

/-! ## Calls -/

/-- **The link takes an event in full as it takes it.** -/
theorem onEvent_inFull (event : Event) :
    link.inFull.onEvent event.inFull = doneInFull <$> link.onEvent event := by
  cases event with
  | advertisement report => exact link.onAdvertisement_inFull report
  | scanComplete reason => rfl
  | linkEstablished conn address status => exact link.onLinkEstablished_inFull conn address status
  | encryptionChange conn status => exact link.onEncryptionChange_inFull conn status
  | disconnect conn reason => exact congrArg Dialogue.done (link.dropLink_inFull conn)
  | repeatPairing conn =>
    simp only [Event.inFull, onEvent, onRepeatPairing_inFull, Functor.map_map]
    rfl
  | discovery conn finding => exact link.onFinding_inFull conn finding
  | scanRestartDue =>
    simp only [Event.inFull, onEvent, onScanRestartDue_inFull, Functor.map_map]
    rfl
  | mtuChanged _ _ | writeComplete _ _ _ | notification _ _ _ _ => rfl

/-- A call with its identifier in full. -/
def Call.inFull : Call → Call
  | event e => event e.inFull
  | call => call

/-- A command is carried out in full as it is carried out. -/
theorem perform_inFull (command : Command) :
    link.inFull.perform command = doneInFull <$> link.perform command := by
  cases command with
  | startScan => exact link.startScan_inFull
  | stopScan => exact link.stopScan_inFull
  | write payload =>
    simp only [perform, Functor.map_map]
    rfl

/-- **The link carries calls out in full as it carries them out.** -/
theorem Call.dialogue_inFull (call : Call) :
    call.inFull.dialogue link.inFull =
      (fun done => (done.1.inFull, done.2)) <$> call.dialogue link := by
  cases call with
  | event e =>
    simp only [Call.inFull, Call.dialogue, onEvent_inFull, Functor.map_map]
    rfl
  | startScan =>
    simp only [Call.inFull, Call.dialogue, startScan_inFull, Functor.map_map]
    rfl
  | stopScan =>
    simp only [Call.inFull, Call.dialogue, stopScan_inFull, Functor.map_map]
    rfl
  | write payload =>
    simp only [Call.inFull, Call.dialogue, Functor.map_map]
    rfl
  | perform command =>
    simp only [Call.inFull, Call.dialogue, perform_inFull, Functor.map_map]
    rfl

/-! ## Two runs -/

/-- Two links are the same up to the form of identifiers. -/
structure Alike (link link' : Link) : Prop where
  stage : link'.stage = link.stage
  scanner : link'.scanner = link.scanner
  camera : link'.camera = link.camera
  snapshot : link'.snapshot = link.snapshot
  peers : link.peers.Alike link'.peers

/-- Links that are equal in full are the same up to the form of identifiers. -/
theorem alike_of_inFull_eq {link link' : Link} (h : link'.inFull = link.inFull) :
    link.Alike link' := by
  obtain ⟨stage, scanner, peers, camera⟩ := Link.mk.inj h
  refine ⟨stage, scanner, camera, ?_, Registry.alike_of_inFull_eq peers⟩
  simp only [snapshot, stage, scanner, camera]

/-- Two turns are the same up to the form of identifiers. -/
structure Turn.Alike (turn turn' : Turn) : Prop where
  exchanges : turn'.exchanges = turn.exchanges
  response : turn'.response = turn.response
  before : turn.before.Alike turn'.before
  after : turn.after.Alike turn'.after

/-- A turn of the link as a turn of a machine. -/
def Turn.machine (turn : Turn) : Dialogue.Turn Call.dialogue where
  before := turn.before
  call := turn.call
  exchanges := turn.exchanges
  response := turn.response
  after := turn.after
  yields := turn.yields

/-- The turns of a run follow on each other. -/
theorem Run.turns {start finish : Link} {history : List Turn} (run : Run start history finish) :
    Dialogue.Turns start (history.map Turn.machine) finish := by
  induction history generalizing start with
  | nil => exact run_nil_iff.1 run
  | cons turn history ih =>
    obtain ⟨hbefore, later⟩ := run_cons_iff.1 run
    exact ⟨hbefore, ih later⟩

/-- Two runs of the link whose calls are equal in full are alike all the way. -/
theorem Run.alike {start link link' : Link} {history history' : List Turn}
    (run : Run start history link) (run' : Run start history' link')
    (calls : history'.map (·.call.inFull) = history.map (·.call.inFull))
    (host : SameHost (history.flatMap (·.exchanges)) (history'.flatMap (·.exchanges))) :
    List.Forall₂ Turn.Alike history history' ∧ link.Alike link' := by
  have calls' : (history'.map Turn.machine).map (fun turn => turn.call.inFull) =
      (history.map Turn.machine).map fun turn => turn.call.inFull := by
    rw [List.map_map, List.map_map]
    exact calls
  have host' : SameHost ((history.map Turn.machine).flatMap (·.exchanges))
      ((history'.map Turn.machine).flatMap (·.exchanges)) := by
    rw [List.flatMap_map, List.flatMap_map]
    exact host
  obtain ⟨hturns, hlink⟩ := Dialogue.Turns.lockstep (fun link call => call.dialogue_inFull link)
    run.turns run'.turns rfl calls' host'
  refine ⟨?_, alike_of_inFull_eq hlink⟩
  rw [List.forall₂_map_left_iff, List.forall₂_map_right_iff] at hturns
  exact hturns.imp fun turn turn' agree =>
    ⟨agree.exchanges, agree.response, alike_of_inFull_eq agree.before,
      alike_of_inFull_eq agree.after⟩

end Link

/-- **The form of identifiers does not matter.**  Take two runs of a new link, with the same scanner
and the same host, in which the same happens up to the form of the identifiers that are reported.
Then the requests, the answers and the responses are the same in each turn, and before and after
each turn the links are the same up to the form of identifiers.  The same is true of two runs of a
registry that began empty, in which the calls and subscriptions are the same up to the form of
identifiers. -/
theorem form_of_identifiers_irrelevant :
    (∀ (scanner : Scanner) (history history' : List Link.Turn) (link link' : Link),
      Link.Run (.new scanner) history link → Link.Run (.new scanner) history' link' →
        history'.map (·.call.inFull) = history.map (·.call.inFull) →
          SameHost (history.flatMap (·.exchanges)) (history'.flatMap (·.exchanges)) →
            List.Forall₂ Link.Turn.Alike history history' ∧ link.Alike link') ∧
      ∀ (history history' : List (Dialogue.Turn Registry.Use.dialogue))
          (registry registry' : Registry),
        Dialogue.Turns {} history registry → Dialogue.Turns {} history' registry' →
          history'.map (·.call.inFull) = history.map (·.call.inFull) →
            SameHost (history.flatMap (·.exchanges)) (history'.flatMap (·.exchanges)) →
              List.Forall₂ (Dialogue.Turn.Agree Registry.Alike) history history' ∧
                registry.Alike registry' := by
  constructor
  · intro scanner history history' link link' run run' calls host
    exact run.alike run' calls host
  · intro history history' registry registry' turns turns' calls host
    obtain ⟨hturns, hregistry⟩ := Dialogue.Turns.lockstep
      (fun registry use => use.dialogue_inFull registry) turns turns' rfl calls host
    refine ⟨?_, Registry.alike_of_inFull_eq hregistry⟩
    exact hturns.imp fun turn turn' agree =>
      agree.mono fun _ _ => Registry.alike_of_inFull_eq

/-- A peer is walked whose camera service has a characteristic that notifies, with its client
configuration, and it is subscribed to. -/
def subscribing : List Registry.Use :=
  ([.add 5 Link.sampleAddress, .discoverAll 5,
    .event (.discovery 5 (.service ⟨Uuid.cameraService, 1, 4⟩)),
    .event (.discovery 5 (.servicesDone .success)),
    .event (.discovery 5 (.characteristic ⟨Uuid.commandResponse, 2, 3, ⟨Properties.notify⟩⟩)),
    .event (.discovery 5 (.characteristicsDone .success)),
    .event (.discovery 5 (.descriptor 3 ⟨Uuid.clientConfiguration, 4⟩)),
    .event (.discovery 5 (.descriptorsDone .success))] : List Registry.Call).map .call ++
      [.subscribe 5]

/-- The visit, and the subscription, with identifiers that are reported by their aliases and in
full.  What is filed differs, and the camera can be written to and is subscribed to either way. -/
theorem form_of_identifiers_visit :
    let visitInFull := Link.visit.map fun call => (call.1.inFull, call.2)
    let link := Link.after (.new {}) Link.visit
    let link' := Link.after (.new {}) visitInFull
    let history := Dialogue.grantedTurns Registry.Use.dialogue {} subscribing
    let history' := Dialogue.grantedTurns Registry.Use.dialogue {} (subscribing.map (·.inFull))
    (link' ≠ link ∧ link.Alike link' ∧ link.camera.commandHandle = some 3) ∧
      List.Forall₂ (Dialogue.Turn.Agree Registry.Alike) history history' ∧
        (∃ turn ∈ history, turn.exchanges = [⟨.write 5 4 [1, 0], .accepted⟩]) ∧
          history'.map (·.after) ≠ history.map (·.after) := by
  intro visitInFull link link' history history'
  obtain ⟨hlinks, hregistries⟩ := form_of_identifiers_irrelevant
  obtain ⟨-, halike⟩ := hlinks {} _ _ _ _ (Link.run_playback (.new {}) Link.visit)
    (Link.run_playback (.new {}) visitInFull) (by decide) (by decide)
  obtain ⟨hturns, -⟩ := hregistries history history' _ _ (Dialogue.turns_granted _ subscribing)
    (Dialogue.turns_granted _ (subscribing.map (·.inFull))) (by decide) (by decide)
  exact ⟨⟨by decide, halike, by decide⟩, hturns, by decide, by decide⟩

end CameraCentral
