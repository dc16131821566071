import CameraCentral.Proofs.Link.CommandHandle
import CameraCentral.Proofs.Link.Restart

/-!
# Commands only go to the camera of the link

Handles are small numbers, and they come back: a connection that is made after another one was lost
can have its number, and the databases of two cameras can have the same handles at different places.
So a command must never be written to a handle that was found out in another life of the connection.
The link has no notion of a life of a connection.  It forgets the camera when its connection goes,
and replaces it when another connection is registered, and `Step.camera_conn_iff` says when exactly
a turn does which.

The history does have that notion.  The connection of the camera is the one that was registered
last, unless it was given up since (`Run.latest_iff`), and the handle is the one that the last walk
through its database found, unless the connection was registered anew since
(`Run.resolved_iff`).  `Run.command_addressed` says that both together decide about every request to
write a command, and that nothing else writes one.
-/

namespace CameraCentral

namespace Link

variable {link link' : Link} {call : Call} {exchanges : List Exchange} {response : Response}
  {conn : ConnHandle} {reaction : Reaction} {event? : Option Event} {scanner : Scanner}
  {history : List Turn} {turn : Turn} {payload : Bytes}

/-! ## The connection of the camera -/

/-- A connection is registered: it is reported to be up, it is not registered yet, and there is room
for it. -/
def Admits (link : Link) (event? : Option Event) (conn : ConnHandle) : Prop :=
  event?.bind Event.established? = some conn ∧ link.peers.find? conn = none ∧
    link.peers.peers.length < Settings.maxPeers

/-- No connection is given up where none is reported to be down and the host refuses to drop
none. -/
theorem not_givesUp (granted : Granted exchanges)
    (up : ∀ other, event?.bind Event.disconnected? ≠ some other) :
    ¬ GivesUp event? exchanges conn := by
  rintro (down | ⟨why, asked⟩)
  · exact up conn down
  · exact granted.not_terminate _ why asked

/-- A connection that goes is no longer the camera's, and if another one goes the camera keeps its
own. -/
theorem conn_dropLink (link : Link) (conn other : ConnHandle) :
    (link.dropLink conn).1.camera.conn = some other ↔
      other ≠ conn ∧ link.camera.conn = some other := by
  rw [camera_dropLink]
  by_cases howns : link.Owns conn
  · rw [if_pos howns]
    constructor
    · intro h
      cases h
    · rintro ⟨hne, mine⟩
      rcases howns with hconn | ⟨unconnected, -⟩
      · exact absurd (Option.some.inj (mine.symm.trans hconn)) hne
      · exact absurd (by rw [Camera.IsConnected, mine]; rfl) unconnected
  · rw [if_neg howns, iff_and_self]
    rintro mine rfl
    exact howns (.inl mine)

/-- Asking the host to drop a connection, as the last thing in a turn, costs the camera its
connection exactly if that is the connection that is given up. -/
theorem Terminates.camera_conn_iff {middle : Link} {asked : List Exchange}
    (down : middle.Terminates conn exchanges link' reaction) (granted : Granted asked)
    (up : ∀ other, event?.bind Event.disconnected? ≠ some other) (other : ConnHandle) :
    link'.camera.conn = some other ↔
      ¬ GivesUp event? (asked ++ exchanges) other ∧ middle.camera.conn = some other := by
  cases down with
  | accepted =>
    have hgranted : Granted (asked ++ [⟨.terminate conn Settings.terminateReason, .accepted⟩]) :=
      granted.append (by simp [Granted])
    exact (and_iff_right (not_givesUp hgranted up)).symm
  | refused why =>
    have hgives : GivesUp event?
        (asked ++ [⟨.terminate conn Settings.terminateReason, .refused why⟩]) other ↔
          other = conn := by
      constructor
      · rintro (hdown | ⟨why', hasked⟩)
        · exact absurd hdown (up other)
        · rcases List.mem_append.1 hasked with hasked | hasked
          · exact absurd hasked (granted.not_terminate _ why')
          · cases List.mem_singleton.1 hasked
            rfl
      · rintro rfl
        exact .inr ⟨why, by simp⟩
    rw [hgives, conn_dropLink]

/-- A turn without a report that a connection is up registers none. -/
theorem camera_conn_iff_of_unestablished
    (unestablished : ∀ other, event?.bind Event.established? ≠ some other)
    (h : link'.camera.conn = some conn ↔
      ¬ GivesUp event? exchanges conn ∧ link.camera.conn = some conn) :
    link'.camera.conn = some conn ↔ ¬ GivesUp event? exchanges conn ∧
      (link.Admits event? conn ∨
        (∀ other, ¬ link.Admits event? other) ∧ link.camera.conn = some conn) := by
  have hadmits : ∀ other, ¬ link.Admits event? other :=
    fun other admits => unestablished other admits.1
  rw [h, or_iff_right (hadmits conn), and_iff_right hadmits]

/-- A plain turn that keeps the camera's connection. -/
theorem Call.IsPlain.camera_conn_iff (plain : call.IsPlain) (granted : Granted exchanges)
    (kept : link'.camera.conn = link.camera.conn) :
    link'.camera.conn = some conn ↔ ¬ GivesUp call.event? exchanges conn ∧
      (link.Admits call.event? conn ∨
        (∀ other, ¬ link.Admits call.event? other) ∧ link.camera.conn = some conn) := by
  obtain ⟨-, up, unestablished⟩ := plain.cases
  apply camera_conn_iff_of_unestablished unestablished
  rw [kept, and_iff_right (not_givesUp granted up)]

/-- A plain turn that asks the host to drop a connection in the end. -/
theorem Terminates.camera_conn_iff_of_plain {middle : Link} {other : ConnHandle}
    (asked : List Exchange) (down : middle.Terminates other exchanges link' reaction)
    (plain : call.IsPlain) (granted : Granted asked) (kept : middle.camera = link.camera) :
    link'.camera.conn = some conn ↔ ¬ GivesUp call.event? (asked ++ exchanges) conn ∧
      (link.Admits call.event? conn ∨
        (∀ other, ¬ link.Admits call.event? other) ∧ link.camera.conn = some conn) := by
  obtain ⟨-, up, unestablished⟩ := plain.cases
  apply camera_conn_iff_of_unestablished unestablished
  rw [down.camera_conn_iff granted up conn, kept]

/-- A turn that registers a connection and keeps it, or gives it up at once. -/
theorem camera_conn_iff_of_added {address : Address} {status : Status} {other : ConnHandle}
    {peers : Registry} (success : status.IsSuccess)
    (added : link.peers.add other address = .ok peers)
    (h : link'.camera.conn = some conn ↔
      ¬ GivesUp (some (.linkEstablished other address status)) exchanges conn ∧
        some other = some conn) :
    link'.camera.conn = some conn ↔
      ¬ GivesUp (some (.linkEstablished other address status)) exchanges conn ∧
        (link.Admits (some (.linkEstablished other address status)) conn ∨
          (∀ c, ¬ link.Admits (some (.linkEstablished other address status)) c) ∧
            link.camera.conn = some conn) := by
  obtain ⟨unknown, room, -⟩ := Registry.add_eq_ok_iff.1 added
  have up := Call.established_of_success success other address
  have hadmits : ∀ c, link.Admits (some (.linkEstablished other address status)) c ↔
      some other = some c := by
    intro c
    constructor
    · rintro ⟨hup, -⟩
      exact up.symm.trans hup
    · intro hsame
      obtain rfl := Option.some.inj hsame
      exact ⟨up, unknown, room⟩
  rw [h, hadmits]
  apply and_congr_right
  intro _
  constructor
  · exact .inl
  · rintro (hsame | ⟨hnone, -⟩)
    · exact hsame
    · exact absurd ((hadmits other).2 rfl) (hnone other)

/-- The turns about the scanner register no connection. -/
theorem ScanStep.not_established (step : ScanStep link call exchanges link' response) :
    call.event?.bind Event.established? ≠ some conn := by
  cases step with
  | connectFailed other address status failed =>
    simp [Call.event?, Event.established?, failed]
  | _ => simp [Call.event?, Event.established?]

/-- The turns about the scanner give no connection up. -/
theorem ScanStep.not_givesUp (step : ScanStep link call exchanges link' response) :
    ¬ GivesUp call.event? exchanges conn := by
  rintro (down | ⟨why, asked⟩)
  · exact step.not_disconnected conn down
  · cases step.request_conn asked

/-- **Which connection the camera has after a turn.**  It is the one that is registered in this
turn, and if there is none, the one that it had before, unless it is given up. -/
theorem Step.camera_conn_iff (step : Step link call exchanges link' response) :
    link'.camera.conn = some conn ↔ ¬ GivesUp call.event? exchanges conn ∧
      (link.Admits call.event? conn ∨
        (∀ other, ¬ link.Admits call.event? other) ∧ link.camera.conn = some conn) := by
  cases step with
  | scan step =>
    apply camera_conn_iff_of_unestablished fun _ => step.not_established
    rw [step.camera_eq, and_iff_right step.not_givesUp]
  | ignored event h =>
    have plain : (Call.event event).IsPlain := by
      cases event <;> trivial
    exact plain.camera_conn_iff granted_nil rfl
  | writeDenied payload why denied => exact Call.IsPlain.camera_conn_iff trivial granted_nil rfl
  | written payload other handle hconn hhandle nonempty short answer =>
    exact Call.IsPlain.camera_conn_iff trivial (by simp [Granted, Request.kind]) rfl
  | unregistered other address status success why full down =>
    have hadmits : ∀ c, ¬ link.Admits (some (.linkEstablished other address status)) c := by
      rintro c ⟨up, free⟩
      have hsame := (Call.established_of_success success other address).symm.trans up
      obtain rfl := Option.some.inj hsame
      exact not_holds_of_full full free
    have kept : link'.camera.conn = some conn ↔
        ¬ GivesUp (some (.linkEstablished other address status)) ([] ++ exchanges) conn ∧
          link.camera.conn = some conn :=
      down.camera_conn_iff granted_nil (by simp [Event.disconnected?]) conn
    simp only [Call.event?, hadmits, false_or, not_false_eq_true, implies_true, true_and]
    exact kept
  | securing other address status success peers added =>
    apply camera_conn_iff_of_added success added
    exact (and_iff_right (not_givesUp (by simp [Granted, Request.kind])
      (by simp [Event.disconnected?]))).symm
  | insecure other address status success peers added why down =>
    apply camera_conn_iff_of_added success added
    change _ ↔ ¬ GivesUp _ ([⟨.secure other, .refused why⟩] ++ _) conn ∧ _
    exact down.camera_conn_iff (by simp [Granted, Request.kind]) (by simp [Event.disconnected?])
      conn
  | unencrypted other status failed peer known down =>
    exact down.camera_conn_iff_of_plain [] trivial granted_nil rfl
  | walkRunning other status success peer known running =>
    exact Call.IsPlain.camera_conn_iff trivial granted_nil rfl
  | walkStarted other status success peer known halted =>
    exact Call.IsPlain.camera_conn_iff trivial (by simp [Granted, Request.kind]) rfl
  | walkRefused other status success peer known halted why down =>
    exact down.camera_conn_iff_of_plain [⟨.discoverServices other, .refused why⟩] trivial
      (by simp [Granted, Request.kind]) rfl
  | disconnect other reason =>
    have hgives : GivesUp (some (.disconnect other reason)) [] conn ↔ conn = other := by
      simp [GivesUp, Event.disconnected?, eq_comm]
    have hadmits : ∀ c, ¬ link.Admits (some (.disconnect other reason)) c := by
      rintro c ⟨up, -⟩
      cases up
    simp only [Call.event?, hgives, hadmits, false_or, not_false_eq_true, implies_true, true_and]
    exact conn_dropLink link other conn
  | pairingIgnored other unknown => exact Call.IsPlain.camera_conn_iff trivial granted_nil rfl
  | pairingRetried other peer known answer =>
    exact Call.IsPlain.camera_conn_iff trivial (by simp [Granted, Request.kind]) rfl
  | walkGoesOn other finding peer peer' known exchanges walk =>
    exact Call.IsPlain.camera_conn_iff trivial (granted_of_walk walk) rfl
  | walkComplete other finding peer peer' known exchanges writes walk count subscription =>
    have hwrites : Granted writes := by
      apply granted_of_kinds
      intro x hx
      obtain ⟨handle, data, hwrite⟩ := Peer.subscribeAll_request subscription x hx
      simp [hwrite, Request.kind]
    have plain : (Call.event (.discovery other finding)).IsPlain := trivial
    exact plain.camera_conn_iff ((granted_of_walk walk).append hwrites) (conn_subscribed _ peer')
  | walkFailed other finding peer peer' known exchanges why walk down =>
    exact down.camera_conn_iff_of_plain exchanges trivial (granted_of_walk walk) rfl

/-- In this turn a connection is given up. -/
def Turn.GivesUp (conn : ConnHandle) (turn : Turn) : Prop :=
  Link.GivesUp turn.call.event? turn.exchanges conn

/-- Which connection the camera has after a turn. -/
theorem Turn.camera_conn_iff (turn : Turn) (conn : ConnHandle) :
    turn.after.camera.conn = some conn ↔ ¬ turn.GivesUp conn ∧
      (turn.Adds conn ∨ (∀ other, ¬ turn.Adds other) ∧ turn.before.camera.conn = some conn) := by
  change _ ↔ ¬ Link.GivesUp turn.call.event? turn.exchanges conn ∧
    (turn.before.Admits turn.call.event? conn ∨
      (∀ other, ¬ turn.before.Admits turn.call.event? other) ∧ _)
  rw [← Call.event?_direct]
  exact turn.step.camera_conn_iff

/-- The connection was registered and kept, and since then no connection was registered and this one
was not given up. -/
def Latest (conn : ConnHandle) (history : List Turn) : Prop :=
  Since (fun turn => (∀ other, ¬ turn.Adds other) ∧ ¬ turn.GivesUp conn)
    (fun turn => turn.Adds conn ∧ ¬ turn.GivesUp conn) history

/-- **The camera's connection is the one that was registered last**, unless it was given up
since. -/
theorem Run.latest_iff (run : Run (new scanner) history link) :
    link.camera.conn = some conn ↔ Latest conn history := by
  refine run.invariant (fun history link => link.camera.conn = some conn ↔ Latest conn history)
    ?_ ?_
  · constructor
    · intro h
      cases h
    · intro h
      exact absurd h (not_since_nil _ _)
  · intro history turn ih
    unfold Latest
    rw [turn.camera_conn_iff, ih, since_concat_iff]
    constructor
    · rintro ⟨still, adds | ⟨unadded, latest⟩⟩
      · exact .inl ⟨adds, still⟩
      · exact .inr ⟨⟨unadded, still⟩, latest⟩
    · rintro (⟨adds, still⟩ | ⟨⟨unadded, still⟩, latest⟩)
      · exact ⟨still, .inl adds⟩
      · exact ⟨still, .inr ⟨unadded, latest⟩⟩

/-! ## The handle of the camera -/

/-- A connection that is added to the registry has not been walked. -/
theorem Turn.Adds.not_completes (adds : turn.Adds conn) : ¬ turn.Completes conn := by
  rintro ⟨-, complete⟩
  obtain ⟨-, unknown, -⟩ := adds
  have change := turn.step.peerChange conn
  unfold progress? at complete
  generalize turn.after.peers.find? conn = entry at change complete
  cases change with
  | same _ =>
    rw [unknown] at complete
    cases complete
  | dropped => cases complete
  | added address up _ room => cases complete
  | restarted encrypted peer known halted progress h =>
    rw [unknown] at known
    cases known
  | walked finding event peer peer' known exchanges outcome walk =>
    rw [unknown] at known
    cases known

/-- The camera takes the handle over that a completed walk of its connection found, and keeps it. -/
theorem Turn.commandHandle_of_resolved {handle : AttHandle} (homed : turn.after.Homed)
    (before : turn.before.camera.conn = some conn → Resolved conn (some handle) history →
      turn.before.camera.commandHandle = some handle)
    (mine : turn.after.camera.conn = some conn)
    (resolved : Resolved conn (some handle) (history ++ [turn])) :
    turn.after.camera.commandHandle = some handle := by
  have hknown := homed conn mine
  have hresolved : turn.Finds conn (some handle) ∨
      (¬ turn.Adds conn ∧ ¬ turn.Completes conn) ∧ Resolved conn (some handle) history :=
    since_concat_iff.1 resolved
  have change := turn.step.cameraChange
  generalize turn.after.camera = camera at change mine ⊢
  cases change with
  | same uncompleted =>
    rcases hresolved with ⟨⟨incomplete, complete⟩, -⟩ | ⟨-, hbefore⟩
    · exact absurd (uncompleted conn mine complete) incomplete
    · exact before mine hbefore
  | lost => cases mine
  | gained other address up unknown =>
    obtain rfl : other = conn := Option.some.inj mine
    by_cases adds : turn.Adds other
    · rcases hresolved with ⟨completes, -⟩ | ⟨⟨unadded, -⟩, -⟩
      · exact absurd completes adds.not_completes
      · exact absurd adds unadded
    · have hbefore := Turn.known_before hknown adds
      rw [unknown] at hbefore
      cases hbefore
  | resolved other finding hmine peer known running complete =>
    obtain rfl : other = conn := Option.some.inj (hmine.symm.trans mine)
    have completes : turn.Completes other := by
      refine ⟨?_, complete⟩
      intro hbefore
      rw [progress?, known] at hbefore
      exact running.ne_complete (Option.some.inj hbefore)
    rcases hresolved with ⟨-, hhandle⟩ | ⟨⟨-, uncompleted⟩, -⟩
    · exact hhandle
    · exact absurd completes uncompleted

/-- **The camera's handle is the one that the last walk of its connection found**, since the
connection was registered. -/
theorem Run.resolved_iff {handle : AttHandle} (run : Run (new scanner) history link)
    (mine : link.camera.conn = some conn) :
    link.camera.commandHandle = some handle ↔ Resolved conn (some handle) history := by
  constructor
  · exact run.inStep.camera conn handle mine
  · intro resolved
    induction run with
    | nil => cases mine
    | concat run turn next ih =>
      have hrun := run.concat turn next
      exact Turn.commandHandle_of_resolved hrun.homed (next ▸ ih) mine resolved

/-! ## Commands -/

/-- A command of these bytes can be written: to the connection that was registered last, and to the
handle that the last walk through its database found. -/
structure Addressed (history : List Turn) (conn : ConnHandle) (handle : AttHandle)
    (payload : Bytes) : Prop where
  latest : Latest conn history
  resolved : Resolved conn (some handle) history
  nonempty : 1 ≤ payload.length
  short : payload.length ≤ Settings.commandMaxLength

/-- Why a command of these bytes cannot be written, and how that is called. -/
inductive Denial (history : List Turn) (payload : Bytes) : Fault → Prop where
  | notConnected (lost : ∀ conn, ¬ Latest conn history) : Denial history payload .notConnected
  | commandHandleUnresolved (conn : ConnHandle) (latest : Latest conn history)
      (unresolved : ∀ handle, ¬ Resolved conn (some handle) history) :
    Denial history payload .commandHandleUnresolved
  | emptyPayload (conn : ConnHandle) (handle : AttHandle) (latest : Latest conn history)
      (resolved : Resolved conn (some handle) history) (empty : payload = []) :
    Denial history payload .emptyPayload
  | payloadTooLarge (conn : ConnHandle) (handle : AttHandle) (latest : Latest conn history)
      (resolved : Resolved conn (some handle) history)
      (long : Settings.commandMaxLength < payload.length) :
    Denial history payload .payloadTooLarge

/-- A command is refused for a reason that lies in the past or in the command itself. -/
theorem Run.denial (run : Run (new scanner) history link) {why : Fault}
    (denied : link.camera.writeCommand payload = .done (.error why)) :
    Denial history payload why := by
  unfold Camera.writeCommand at denied
  cases hconn : link.camera.conn with
  | none =>
    simp only [hconn] at denied
    cases denied
    apply Denial.notConnected
    intro conn latest
    rw [run.latest_iff.2 latest] at hconn
    cases hconn
  | some conn =>
    have latest := run.latest_iff.1 hconn
    cases hhandle : link.camera.commandHandle with
    | none =>
      simp only [hconn, hhandle] at denied
      cases denied
      apply Denial.commandHandleUnresolved conn latest
      intro handle resolved
      rw [(run.resolved_iff hconn).2 resolved] at hhandle
      cases hhandle
    | some handle =>
      have resolved := (run.resolved_iff hconn).1 hhandle
      simp only [hconn, hhandle] at denied
      by_cases empty : payload = []
      · rw [if_pos empty] at denied
        cases denied
        exact .emptyPayload conn handle latest resolved empty
      · rw [if_neg empty] at denied
        by_cases long : Settings.commandMaxLength < payload.length
        · rw [if_pos long] at denied
          cases denied
          exact .payloadTooLarge conn handle latest resolved long
        · rw [if_neg long] at denied
          cases denied

/-- Where a command is denied there is nowhere to write it to. -/
theorem Denial.not_addressed {why : Fault} (run : Run (new scanner) history link)
    (denial : Denial history payload why) {handle : AttHandle} :
    ¬ Addressed history conn handle payload := by
  intro addressed
  cases denial with
  | notConnected lost => exact lost conn addressed.latest
  | commandHandleUnresolved other latest unresolved =>
    have hconn := (run.latest_iff.2 latest).symm.trans (run.latest_iff.2 addressed.latest)
    obtain rfl := Option.some.inj hconn
    exact unresolved handle addressed.resolved
  | emptyPayload other handle' latest resolved empty =>
    have hlength := addressed.nonempty
    rw [empty] at hlength
    cases hlength
  | payloadTooLarge other handle' latest resolved long =>
    exact absurd long (Nat.not_lt.2 addressed.short)

/-- Only a request to write a command makes the host write one, and it makes no other request. -/
theorem Step.write_of_command (step : Step link call exchanges link' response) {x : Exchange}
    (hx : x ∈ exchanges) {handle : AttHandle}
    (hrequest : x.request = .writeNoResponse conn handle payload) :
    call = .write payload ∧ exchanges = [x] := by
  have other : x.request.kind ≠ .writeNoResponse → call = .write payload ∧ exchanges = [x] := by
    intro hkind
    rw [hrequest] at hkind
    exact absurd rfl hkind
  have dropped : ∀ {middle : Link} {c : ConnHandle} {asked : List Exchange} {r : Reaction},
      middle.Terminates c asked link' r → x ∈ asked → x.request.kind ≠ .writeNoResponse := by
    intro middle c asked r down hmem
    rw [down.request_eq hmem]
    simp [Request.kind]
  have walked : ∀ {peer peer' : Peer} {finding : Finding} {outcome : Option Outcome}
      {asked : List Exchange}, peer.WalkStep finding asked peer' outcome → x ∈ asked →
        x.request.kind ≠ .writeNoResponse := by
    intro peer peer' finding outcome asked walk hmem
    rcases walk.request_kind hmem with hkind | hkind <;> simp [hkind]
  cases step with
  | scan step =>
    have hnone := step.request_conn hx
    rw [hrequest] at hnone
    cases hnone
  | written payload' conn' handle' hconn hhandle nonempty short answer =>
    obtain rfl := List.mem_singleton.1 hx
    cases hrequest
    exact ⟨rfl, rfl⟩
  | ignored | writeDenied | walkRunning | disconnect | pairingIgnored => cases hx
  | unregistered c address status success why full down => exact other (dropped down hx)
  | securing | walkStarted | pairingRetried =>
    obtain rfl := List.mem_singleton.1 hx
    exact other (by simp [Request.kind])
  | insecure c address status success peers added why down =>
    rcases List.mem_cons.1 hx with rfl | hx
    · exact other (by simp [Request.kind])
    · exact other (dropped down hx)
  | unencrypted c status failed peer known down => exact other (dropped down hx)
  | walkRefused c status success peer known halted why down =>
    rcases List.mem_cons.1 hx with rfl | hx
    · exact other (by simp [Request.kind])
    · exact other (dropped down hx)
  | walkGoesOn c finding peer peer' known exchanges walk => exact other (walked walk hx)
  | walkComplete c finding peer peer' known exchanges writes walk count subscription =>
    rcases List.mem_append.1 hx with hx | hx
    · exact other (walked walk hx)
    · obtain ⟨handle, data, hwrite⟩ := Peer.subscribeAll_request subscription x hx
      exact other (by simp [hwrite, Request.kind])
  | walkFailed c finding peer peer' known exchanges why walk down =>
    rcases List.mem_append.1 hx with hx | hx
    · exact other (walked walk hx)
    · exact other (dropped down hx)

/-- What a request to write a command comes to in a run: it is refused, or it is written to where
the past says that it has to go. -/
theorem Run.write_cases (run : Run (new scanner) history link)
    (step : Step link (.write payload) exchanges link' response) :
    (∃ why, Denial history payload why ∧ exchanges = [] ∧ response = .result (.error why)) ∨
      ∃ conn handle answer, Addressed history conn handle payload ∧
        exchanges = [⟨.writeNoResponse conn handle payload, answer⟩] ∧
          response = .result answer.result := by
  cases step with
  | scan step => cases step
  | writeDenied payload why denied => exact .inl ⟨why, run.denial denied, rfl, rfl⟩
  | written payload conn handle hconn hhandle nonempty short answer =>
    refine .inr ⟨conn, handle, answer, ?_, rfl, rfl⟩
    exact ⟨run.latest_iff.1 hconn, (run.resolved_iff hconn).1 hhandle,
      List.length_pos_iff.2 nonempty, short⟩

/-- There is one place at most to which a command is written. -/
theorem Addressed.unique (run : Run (new scanner) history link) {conn' : ConnHandle}
    {handle handle' : AttHandle} (addressed : Addressed history conn handle payload)
    (addressed' : Addressed history conn' handle' payload) : conn' = conn ∧ handle' = handle := by
  have hconn := run.latest_iff.2 addressed.latest
  have hconn' := run.latest_iff.2 addressed'.latest
  obtain rfl : conn' = conn := Option.some.inj (hconn'.symm.trans hconn)
  have hhandle := (run.resolved_iff hconn).2 addressed.resolved
  have hhandle' := (run.resolved_iff hconn).2 addressed'.resolved
  exact ⟨rfl, Option.some.inj (hhandle'.symm.trans hhandle)⟩

/-- **Commands only go to the camera of the link.**  In every run of a new link, what is written
without confirmation is a command that was asked for in this turn, it is the only request of the
turn, and it goes to the connection that was registered last and to the handle that the last walk
through its database found.  And a request to write a command is decided by that: the command is
written if there is such a connection and such a handle and its length is right, and otherwise the
host is not asked for anything, and the refusal says what is missing. -/
theorem Run.command_addressed (run : Run (new scanner) (history ++ [turn]) link) :
    (∀ x ∈ turn.exchanges, ∀ conn handle payload,
      x.request = .writeNoResponse conn handle payload →
        turn.call.direct = .write payload ∧ turn.exchanges = [x] ∧
          Addressed history conn handle payload) ∧
      ∀ payload, turn.call.direct = .write payload →
        (∀ conn handle, Addressed history conn handle payload →
          ∃ answer, turn.exchanges = [⟨.writeNoResponse conn handle payload, answer⟩] ∧
            turn.response = .result answer.result) ∧
        ((∀ conn handle, ¬ Addressed history conn handle payload) →
          turn.exchanges = [] ∧
            ∃ why, Denial history payload why ∧ turn.response = .result (.error why)) := by
  obtain ⟨run, -⟩ := run_concat_iff.1 run
  have step := turn.step
  refine ⟨?_, ?_⟩
  · intro x hx conn handle payload hrequest
    obtain ⟨hcall, hexchanges⟩ := step.write_of_command hx hrequest
    refine ⟨hcall, hexchanges, ?_⟩
    rw [hcall] at step
    rcases run.write_cases step with
      ⟨why, -, hnone, -⟩ | ⟨conn', handle', answer, addressed, hone, -⟩
    · rw [hnone] at hx
      cases hx
    · rw [hone] at hx
      obtain rfl := List.mem_singleton.1 hx
      cases hrequest
      exact addressed
  · intro payload hcall
    rw [hcall] at step
    rcases run.write_cases step with ⟨why, denial, hnone, hresponse⟩ |
      ⟨conn', handle', answer, addressed', hone, hresponse⟩
    · refine ⟨?_, fun _ => ⟨hnone, why, denial, hresponse⟩⟩
      intro conn handle addressed
      exact absurd addressed (denial.not_addressed run)
    · refine ⟨?_, fun hnot => absurd addressed' (hnot conn' handle')⟩
      intro conn handle addressed
      obtain ⟨rfl, rfl⟩ := addressed.unique run addressed'
      exact ⟨answer, hone, hresponse⟩

/-- After the visit the connection is lost, and another one comes up with its number. -/
def revisit : List (Call × Script) :=
  visit ++ [(.event (.disconnect 5 .success), ({} : Script)),
    (.event (.linkEstablished 5 sampleAddress .success), ({} : Script))]

/-- A command at the end of the visit is written to the handle that was found.  On the new
connection the handle does not count any more, and the command is refused. -/
theorem command_addressed_revisit :
    let history := playback (new {}) visit
    let turn := Turn.against Script.reply {} (after (new {}) visit)
      (.perform (.write Camera.shutterOn))
    let later := playback (new {}) revisit
    let denied := Turn.against Script.reply {} (after (new {}) revisit)
      (.perform (.write Camera.shutterOn))
    turn.exchanges = [⟨.writeNoResponse 5 3 Camera.shutterOn, .accepted⟩] ∧
      Addressed history 5 3 Camera.shutterOn ∧
      denied.exchanges = [] ∧ Denial later Camera.shutterOn .commandHandleUnresolved := by
  intro history turn later denied
  have run : Run (new {}) (history ++ [turn]) turn.after :=
    run_concat_iff.2 ⟨run_playback (new {}) visit, rfl⟩
  have run' : Run (new {}) (later ++ [denied]) denied.after :=
    run_concat_iff.2 ⟨run_playback (new {}) revisit, rfl⟩
  obtain ⟨hwrites, -⟩ := Run.command_addressed run
  obtain ⟨-, hdecides⟩ := Run.command_addressed run'
  obtain ⟨hwritten, hdenied⟩ := hdecides Camera.shutterOn rfl
  have hnone : denied.exchanges = [] := by decide
  obtain ⟨-, why, denial, hresponse⟩ := hdenied fun conn handle addressed => by
    obtain ⟨answer, hone, -⟩ := hwritten conn handle addressed
    rw [hnone] at hone
    cases hone
  cases hresponse
  obtain ⟨-, -, addressed⟩ := hwrites ⟨.writeNoResponse 5 3 Camera.shutterOn, .accepted⟩
    (by decide) 5 3 Camera.shutterOn rfl
  exact ⟨by decide, addressed, hnone, denial⟩

end Link

end CameraCentral
