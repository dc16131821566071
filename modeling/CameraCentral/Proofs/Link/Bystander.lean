import CameraCentral.Proofs.Link.CommandHandle

/-!
# The camera and other connections

Other connections than the camera's may be registered, and the host reports events about them, too.
The camera is none the worse for that: in a turn about another connection the camera stays exactly
as it is.  The stage does not.  There is one stage for the whole link, and three things move it for
whichever connection they happen to: a registered connection is lost, a walk is started, and a walk
is completed.

`Disturbance` lists what a turn about another connection does to the stage, `Step.bystander` says
that there is nothing else, and `Turn.stage_of_other` computes the stage after such a turn.  A
connection that is not registered has no such effect.
-/

namespace CameraCentral

namespace Link

variable {turn : Turn} {conn other : ConnHandle} {link link' : Link} {call : Call}
  {exchanges : List Exchange} {response : Response} {reaction : Reaction}

/-! ## Turns about one connection -/

namespace Turn

/-- In this turn an event about a connection is reported. -/
def Concerns (conn : ConnHandle) (turn : Turn) : Prop :=
  turn.call.event?.bind Event.conn? = some conn

/-- In this turn a connection is dropped from the registry. -/
def Drops (conn : ConnHandle) (turn : Turn) : Prop :=
  (turn.before.peers.find? conn).isSome ∧ turn.after.peers.find? conn = none

/-- In this turn the host agrees to walk a connection. -/
def Walks (conn : ConnHandle) (turn : Turn) : Prop :=
  ⟨.discoverServices conn, .accepted⟩ ∈ turn.exchanges

instance (conn : ConnHandle) : DecidablePred (Concerns conn) :=
  fun turn => inferInstanceAs (Decidable (turn.call.event?.bind Event.conn? = some conn))

instance (conn : ConnHandle) : DecidablePred (Drops conn) :=
  fun _ => inferInstanceAs (Decidable (_ ∧ _))

instance (conn : ConnHandle) : DecidablePred (Walks conn) :=
  fun turn => inferInstanceAs (Decidable (⟨.discoverServices conn, .accepted⟩ ∈ turn.exchanges))

end Turn

/-! ## What becomes of the stage -/

/-- What a turn about a connection that is not the camera's can make of the stage. -/
inductive Disturbance (link : Link) (exchanges : List Exchange) (link' : Link)
    (other : ConnHandle) : Stage → Prop where
  | lost (known : (link.peers.find? other).isSome) (gone : link'.peers.find? other = none) :
    Disturbance link exchanges link' other .idle
  | walking (known : (link.peers.find? other).isSome) (kept : (link'.peers.find? other).isSome)
      (asked : ⟨.discoverServices other, .accepted⟩ ∈ exchanges) :
    Disturbance link exchanges link' other .serviceDiscovery
  | completed (known : (link.peers.find? other).isSome) (kept : (link'.peers.find? other).isSome)
      (unasked : ⟨.discoverServices other, .accepted⟩ ∉ exchanges)
      (incomplete : link.progress? other ≠ some .complete)
      (complete : link'.progress? other = some .complete) :
    Disturbance link exchanges link' other .subscribed
  | unmoved (kept : (link.peers.find? other).isSome → (link'.peers.find? other).isSome)
      (unasked : ⟨.discoverServices other, .accepted⟩ ∉ exchanges)
      (uncompleted : link'.progress? other = some .complete →
        link.progress? other = some .complete) :
    Disturbance link exchanges link' other link.stage

/-- The camera is connected when it is at a connection. -/
theorem connected_of_mine (mine : link.camera.conn = some conn) : link.camera.IsConnected := by
  rw [Camera.IsConnected, mine]
  rfl

/-- While the camera is at a connection no other one is the link's own. -/
theorem not_owns_of_mine (mine : link.camera.conn = some conn) (hother : other ≠ conn) :
    ¬ link.Owns other := by
  rintro (hconn | ⟨unconnected, -⟩)
  · exact hother (Option.some.inj (hconn.symm.trans mine))
  · exact unconnected (connected_of_mine mine)

/-- A turn that asks the host to drop a registered connection that is not the camera's. -/
theorem Terminates.disturbance {middle : Link} {asked : List Exchange}
    (down : middle.Terminates other exchanges link' reaction)
    (mine : link.camera.conn = some conn) (hother : other ≠ conn)
    (camera : middle.camera = link.camera) (stage : middle.stage = link.stage)
    (known : (link.peers.find? other).isSome) (kept : (middle.peers.find? other).isSome)
    (unasked : ⟨.discoverServices other, .accepted⟩ ∉ asked)
    (uncompleted : middle.progress? other = some .complete →
      link.progress? other = some .complete) :
    link'.camera = link.camera ∧
      Disturbance link (asked ++ exchanges) link' other link'.stage := by
  have hunasked : ⟨.discoverServices other, .accepted⟩ ∉ asked ++ exchanges := by
    intro hx
    rcases List.mem_append.1 hx with hx | hx
    · exact unasked hx
    · cases down.request_eq hx
  cases down with
  | accepted =>
    rw [stage]
    exact ⟨camera, .unmoved (fun _ => kept) hunasked uncompleted⟩
  | refused why =>
    rw [camera_dropLink, if_neg (not_owns_of_mine (camera ▸ mine) hother), stage_dropLink,
      if_pos (.inl kept)]
    refine ⟨camera, .lost known ?_⟩
    rw [peers_dropLink]
    exact Registry.find?_erase_self _ other

/-- A turn that neither changes anything nor asks for a walk. -/
theorem Disturbance.of_same (unasked : ⟨.discoverServices other, .accepted⟩ ∉ exchanges) :
    Disturbance link exchanges link other link.stage :=
  .unmoved id unasked id

/-- What a walk asks for is never the services. -/
theorem unasked_of_walk {finding : Finding} {peer peer' : Peer} {outcome : Option Outcome}
    (walk : peer.WalkStep finding exchanges peer' outcome) (answer : Answer) :
    ⟨.discoverServices other, answer⟩ ∉ exchanges := by
  intro hx
  rcases walk.request_kind hx with hkind | hkind <;> cases hkind

/-- Restarting the walk of a connection does not complete it. -/
theorem uncompleted_of_restart {peer old : Peer} (known : link.peers.find? other = some old)
    (hconn : peer.conn = other) (incomplete : peer.progress ≠ .complete) :
    (link.refreshed peer).progress? other = some .complete →
      link.progress? other = some .complete := by
  intro complete
  rw [progress?_refreshed_self known hconn] at complete
  exact absurd (Option.some.inj complete) incomplete

/-- **A turn about another connection leaves the camera alone**, and does no more to the stage than
`Disturbance` says. -/
theorem Step.bystander (step : Step link call exchanges link' response)
    (mine : link.camera.conn = some conn) (about : call.event?.bind Event.conn? = some other)
    (hother : other ≠ conn) (quiet : call.event?.bind Event.established? ≠ some other) :
    link'.camera = link.camera ∧ Disturbance link exchanges link' other link'.stage := by
  cases step with
  | scan step =>
    cases step with
    | connectFailed dialled address status failed =>
      rw [if_pos (connected_of_mine mine)]
      exact ⟨rfl, .of_same List.not_mem_nil⟩
    | _ => cases about
  | ignored event ignores => exact ⟨rfl, .of_same List.not_mem_nil⟩
  | writeDenied payload why denied => cases about
  | written payload handle _ _ _ _ answer => cases about
  | unregistered up address status success why full down =>
    obtain rfl : up = other := Option.some.inj about
    exact absurd (Call.established_of_success success up address) quiet
  | securing up address status success peers added =>
    obtain rfl : up = other := Option.some.inj about
    exact absurd (Call.established_of_success success up address) quiet
  | insecure up address status success peers added why down =>
    obtain rfl : up = other := Option.some.inj about
    exact absurd (Call.established_of_success success up address) quiet
  | unencrypted changed status failed peer hpeer down =>
    obtain rfl : changed = other := Option.some.inj about
    have known : (link.peers.find? changed).isSome := Option.isSome_of_eq_some hpeer
    exact down.disturbance mine hother rfl rfl known known List.not_mem_nil id
  | walkRunning changed status success peer hpeer running =>
    obtain rfl : changed = other := Option.some.inj about
    have hconn : peer.conn = changed := Registry.conn_of_find?_eq_some hpeer
    have hpeer' : (link.refreshed peer).peers.find? changed = some peer :=
      find?_refreshed_self hpeer hconn
    refine ⟨rfl, .unmoved (fun _ => Option.isSome_of_eq_some hpeer') List.not_mem_nil ?_⟩
    rw [progress?, progress?, hpeer, hpeer']
    exact id
  | walkStarted changed status success peer hpeer halted =>
    obtain rfl : changed = other := Option.some.inj about
    have hconn : peer.conn = changed := Registry.conn_of_find?_eq_some hpeer
    let restarted : Peer := { peer with services := [], progress := .services }
    have hrestarted : (link.refreshed restarted).peers.find? changed = some restarted :=
      find?_refreshed_self hpeer hconn
    exact ⟨rfl, .walking (Option.isSome_of_eq_some hpeer) (Option.isSome_of_eq_some hrestarted)
      (List.mem_singleton.2 rfl)⟩
  | walkRefused changed status success peer hpeer halted why down =>
    obtain rfl : changed = other := Option.some.inj about
    have hconn : peer.conn = changed := Registry.conn_of_find?_eq_some hpeer
    let restarted : Peer := { peer with services := [], progress := .failed }
    have hrestarted : (link.refreshed restarted).peers.find? changed = some restarted :=
      find?_refreshed_self hpeer hconn
    have refused : (⟨.discoverServices changed, .accepted⟩ : Exchange) ∉
        [⟨.discoverServices changed, .refused why⟩] := by simp
    have incomplete : restarted.progress ≠ .complete := by simp [restarted]
    exact down.disturbance mine hother rfl rfl (Option.isSome_of_eq_some hpeer)
      (Option.isSome_of_eq_some hrestarted) refused (uncompleted_of_restart hpeer hconn incomplete)
  | disconnect down reason =>
    obtain rfl : down = other := Option.some.inj about
    have foreign : ¬ link.Owns down := not_owns_of_mine mine hother
    by_cases known : (link.peers.find? down).isSome
    · rw [camera_dropLink, if_neg foreign, stage_dropLink, if_pos (.inl known)]
      refine ⟨rfl, .lost known ?_⟩
      rw [peers_dropLink]
      exact Registry.find?_erase_self _ down
    · have hsame : (link.dropLink down).1 = link := by
        rw [dropLink, if_neg (not_or.2 ⟨known, foreign⟩)]
      rw [hsame]
      exact ⟨rfl, .of_same List.not_mem_nil⟩
  | pairingIgnored pairing unknown => exact ⟨rfl, .of_same List.not_mem_nil⟩
  | pairingRetried pairing peer hpeer answer => exact ⟨rfl, .of_same (by simp)⟩
  | walkGoesOn walked finding peer peer' hpeer exchanges walk =>
    obtain rfl : walked = other := Option.some.inj about
    have hpeer' : (link.refreshed peer').peers.find? walked = some peer' :=
      find?_refreshed_self hpeer (find?_of_walk hpeer walk).1
    exact ⟨rfl, .unmoved (fun _ => Option.isSome_of_eq_some hpeer') (unasked_of_walk walk _)
      (uncompleted_of_walk hpeer walk (by simp) walked)⟩
  | walkComplete walked finding peer peer' hpeer exchanges writes walk count subscription =>
    obtain rfl : walked = other := Option.some.inj about
    have hconn : peer'.conn = walked := (find?_of_walk hpeer walk).1
    have foreign : link.camera.conn ≠ some peer'.conn := by
      rw [mine, hconn]
      exact fun heq => hother (Option.some.inj heq).symm
    have hsubscribed : (link.refreshed peer').subscribed peer' =
        { link.refreshed peer' with stage := .subscribed } := by
      rw [subscribed]
      exact if_neg foreign
    have running : peer.progress.InFlight := walk.inFlight_of_outcome
    have hpeer' : (link.refreshed peer').peers.find? walked = some peer' :=
      find?_refreshed_self hpeer hconn
    rw [hsubscribed]
    refine ⟨rfl, .completed (Option.isSome_of_eq_some hpeer) (Option.isSome_of_eq_some hpeer')
      ?_ ?_ ?_⟩
    · intro hx
      rcases List.mem_append.1 hx with hx | hx
      · exact unasked_of_walk walk _ hx
      · obtain ⟨handle, data, hrequest⟩ := Peer.subscribeAll_request subscription _ hx
        cases hrequest
    · intro complete
      rw [progress?, hpeer] at complete
      exact running.ne_complete (Option.some.inj complete)
    · have hcomplete : peer'.progress = .complete := walk.reports running
      exact (progress?_refreshed_self hpeer hconn).trans (congrArg some hcomplete)
  | walkFailed walked finding peer peer' hpeer exchanges why walk down =>
    obtain rfl : walked = other := Option.some.inj about
    have hpeer' : (link.refreshed peer').peers.find? walked = some peer' :=
      find?_refreshed_self hpeer (find?_of_walk hpeer walk).1
    exact down.disturbance mine hother rfl rfl (Option.isSome_of_eq_some hpeer)
      (Option.isSome_of_eq_some hpeer') (unasked_of_walk walk _)
      (uncompleted_of_walk hpeer walk (by simp) walked)

/-- A connection that is not registered does not move the stage. -/
theorem Disturbance.stage_of_unknown {stage : Stage}
    (disturbance : Disturbance link exchanges link' other stage)
    (unknown : link.peers.find? other = none) : stage = link.stage := by
  have hknown : ¬ (link.peers.find? other).isSome := by
    rw [unknown]
    exact Bool.false_ne_true
  cases disturbance with
  | lost known gone => exact absurd known hknown
  | walking known kept asked => exact absurd known hknown
  | completed known kept unasked incomplete complete => exact absurd known hknown
  | unmoved kept unasked uncompleted => rfl

/-- A connection that stays registered is not dropped. -/
theorem Turn.not_drops_of_kept (kept : (turn.before.peers.find? other).isSome →
    (turn.after.peers.find? other).isSome) : ¬ turn.Drops other := by
  rintro ⟨known, gone⟩
  have hkept := kept known
  rw [gone] at hkept
  cases hkept

/-- **The stage after a turn about another connection.**  While the camera is at a connection, let
an event about another one be reported, other than that it is up.  The camera stays as it is.  The
stage is `idle` if the other connection was dropped from the registry, `serviceDiscovery` if a walk
of it was started, `subscribed` if a walk of it was completed, and as it was otherwise; in
particular it is as it was if the other connection was not registered. -/
theorem Turn.stage_of_other (mine : turn.before.camera.conn = some conn)
    (concerns : turn.Concerns other) (hother : other ≠ conn) (quiet : ¬ turn.Establishes other) :
    turn.after.camera = turn.before.camera ∧
      turn.after.stage =
        (if turn.Drops other then .idle
        else if turn.Walks other then .serviceDiscovery
        else if turn.Completes other then .subscribed
        else turn.before.stage) ∧
      (turn.before.peers.find? other = none → turn.after.stage = turn.before.stage) := by
  rw [Turn.Concerns, ← Call.event?_direct] at concerns
  rw [Turn.Establishes, ← Call.event?_direct] at quiet
  obtain ⟨hcamera, disturbance⟩ := turn.step.bystander mine concerns hother quiet
  refine ⟨hcamera, ?_, disturbance.stage_of_unknown⟩
  generalize turn.after.stage = stage at disturbance
  cases disturbance with
  | lost known gone =>
    have hdrops : turn.Drops other := ⟨known, gone⟩
    rw [if_pos hdrops]
  | walking known kept asked =>
    have hdrops : ¬ turn.Drops other := Turn.not_drops_of_kept fun _ => kept
    have hwalks : turn.Walks other := asked
    rw [if_neg hdrops, if_pos hwalks]
  | completed known kept unasked incomplete complete =>
    have hdrops : ¬ turn.Drops other := Turn.not_drops_of_kept fun _ => kept
    have hwalks : ¬ turn.Walks other := unasked
    have hcompletes : turn.Completes other := ⟨incomplete, complete⟩
    rw [if_neg hdrops, if_neg hwalks, if_pos hcompletes]
  | unmoved kept unasked uncompleted =>
    have hdrops : ¬ turn.Drops other := Turn.not_drops_of_kept kept
    have hwalks : ¬ turn.Walks other := unasked
    have hcompletes : ¬ turn.Completes other := fun ⟨incomplete, complete⟩ =>
      incomplete (uncompleted complete)
    rw [if_neg hdrops, if_neg hwalks, if_neg hcompletes]

/-- Another device comes up on connection 4, and then the visit on connection 5 takes place. -/
def company : List (Call × Script) :=
  (.event (.linkEstablished 4 ⟨.publicDevice, #v[6, 5, 4, 3, 2, 1]⟩ .success), {}) :: visit

/-- That the device on connection 4 cannot be encrypted does not concern the camera on connection 5
as long as the host agrees to drop it. -/
theorem stage_of_company :
    let turn := Turn.against Script.reply {} (after (new {}) company)
      (.event (.encryptionChange 4 ⟨1⟩))
    (turn.before.peers.find? 4).isSome ∧ turn.before.camera.conn = some 5 ∧
      turn.after.camera = turn.before.camera ∧ turn.after.stage = .ready := by
  intro turn
  have mine : turn.before.camera.conn = some 5 := by decide
  have concerns : turn.Concerns 4 := by decide
  obtain ⟨hcamera, hstage, -⟩ := Turn.stage_of_other mine concerns (by decide) (by decide)
  have hsame : turn.after.stage = .ready := hstage.trans (by decide)
  exact ⟨by decide, mine, hcamera, hsame⟩

/-- That the device on connection 4 goes down takes the link back to `idle`, although the camera on
connection 5 is connected and ready for commands. -/
theorem idle_in_company :
    let turn := Turn.against Script.reply {} (after (new {}) company) (.event (.disconnect 4 ⟨8⟩))
    Run (new {}) (playback (new {}) company ++ [turn]) turn.after ∧
      turn.before.camera.conn = some 5 ∧ turn.before.stage = .ready ∧
        turn.after.camera = turn.before.camera ∧ turn.after.stage = .idle := by
  intro turn
  have run : Run (new {}) (playback (new {}) company ++ [turn]) turn.after :=
    (run_playback (new {}) company).concat turn rfl
  exact ⟨run, by decide, by decide, by decide, by decide⟩

end Link

end CameraCentral
