import CameraCentral.Proofs.Link.Change
import CameraCentral.Proofs.Peer.Filing

/-!
# Sessions with a peer

A session is the link together with a peer that answers it.  The host takes every request on, and a
request about the peer's database is answered from the database: with the entries in the range that
was asked for, and then with the report that there are no more.  What is reported waits in a queue,
and a step of the session hands the first report to the link.

The session goes by itself; `Session.Leads` says where it comes to.
-/

namespace CameraCentral

/-- A host that takes every request on. -/
def agree (state : Unit) (_ : Request) : Answer × Unit := (.accepted, state)

namespace Database

/-- What a peer has to report when it is asked about its database. -/
def report (database : Database) : Request → List Finding
  | .discoverServices _ =>
    database.services.map (fun service => .service service.toServiceDecl) ++
      [.servicesDone .success]
  | .discoverCharacteristics _ first last =>
    (database.characteristicsIn first last).map (fun c => .characteristic c.toCharacteristicDecl) ++
      [.characteristicsDone .success]
  | .discoverDescriptors _ value last =>
    (database.descriptorsIn value last).map (fun d => .descriptor value d) ++
      [.descriptorsDone .success]
  | _ => []

/-- What the host reports when it is asked for something, if the peer at a connection has this
database. -/
def answer (database : Database) (conn : ConnHandle) (request : Request) : List Event :=
  if request.conn? = some conn then (database.report request).map (.discovery conn) else []

variable (database : Database) (conn : ConnHandle)

/-- The services are reported, and then that there are no more. -/
theorem answer_discoverServices :
    database.answer conn (.discoverServices conn) =
      ((database.services.map fun service => Finding.service service.toServiceDecl) ++
        [Finding.servicesDone .success]).map (.discovery conn) := if_pos rfl

variable {database} {before after : List Service} {service : Service}

/-- Asked about the range of a service, a peer reports the characteristics that it has. -/
theorem answer_discoverCharacteristics (h : database.services = before ++ service :: after) :
    database.answer conn (.discoverCharacteristics conn service.first service.last) =
      ((service.characteristics.map fun c => Finding.characteristic c.toCharacteristicDecl) ++
        [Finding.characteristicsDone .success]).map (.discovery conn) := by
  rw [← characteristicsIn_service h]
  exact if_pos rfl

/-- Asked about the range of a characteristic, a peer reports the descriptors that it has. -/
theorem answer_discoverDescriptors (h : database.services = before ++ service :: after)
    {first rest : List Characteristic} {characteristic : Characteristic}
    (hsplit : service.characteristics = first ++ characteristic :: rest) :
    database.answer conn
        (.discoverDescriptors conn characteristic.value
          (service.descriptorEnd characteristic.value)) =
      ((characteristic.descriptors.map fun d => Finding.descriptor characteristic.value d) ++
        [Finding.descriptorsDone .success]).map (.discovery conn) := by
  rw [← descriptorsIn_characteristic h hsplit]
  exact if_pos rfl

end Database

namespace Link

/-- The link and what waits to be reported to it. -/
structure Session where
  link : Link
  /-- What waits to be reported, in order. -/
  queue : List Event
  /-- What the link has asked for, in order. -/
  asked : List Request

namespace Session

variable (database : Database) (conn : ConnHandle)

/-- The session after the link carried something out: what it asked for is answered behind the
queue. -/
def resume (queue : List Event) (asked : List Request) (d : Dialogue (Link × Reaction)) :
    Session where
  link := (d.run agree ()).value.1
  queue := queue ++ (d.run agree ()).requests.flatMap (database.answer conn)
  asked := asked ++ (d.run agree ()).requests

/-- The first report in the queue is handed to the link. -/
def step (session : Session) : Session :=
  match session.queue with
  | [] => session
  | event :: queue => resume database conn queue session.asked (session.link.onEvent event)

/-- The session after a number of steps. -/
def after (session : Session) : Nat → Session
  | 0 => session
  | n + 1 => step database conn (session.after n)

/-- The session comes to another in a number of steps. -/
def Leads (session session' : Session) : Prop := ∃ n, session.after database conn n = session'

variable {database conn} {session session' session'' : Session}

theorem after_add (session : Session) (m n : Nat) :
    session.after database conn (m + n) =
      (session.after database conn m).after database conn n := by
  induction n with
  | zero => rfl
  | succ n ih =>
    change step database conn (session.after database conn (m + n)) = _
    rw [ih]
    rfl

theorem Leads.refl (session : Session) : Leads database conn session session := ⟨0, rfl⟩

theorem Leads.trans (h : Leads database conn session session')
    (h' : Leads database conn session' session'') : Leads database conn session session'' := by
  obtain ⟨m, rfl⟩ := h
  obtain ⟨n, rfl⟩ := h'
  exact ⟨m + n, after_add session m n⟩

/-- A session leads to where it leads after the first report. -/
theorem Leads.of_event {link : Link} {event : Event} {queue : List Event} {asked : List Request}
    (h : Leads database conn (resume database conn queue asked (link.onEvent event)) session) :
    Leads database conn ⟨link, event :: queue, asked⟩ session :=
  Leads.trans ⟨1, rfl⟩ h

end Session

/-! ## Walks in a session -/

/-- What the link makes of a finding once the walk has taken it in. -/
def follow (link : Link) (conn : ConnHandle) : Peer × Option Outcome → Dialogue (Link × Reaction)
  | (peer, none) => .done (link.refreshed peer, .nothing)
  | (peer, some .complete) => (link.refreshed peer).onWalkComplete conn
  | (peer, some (.failed _)) => (link.refreshed peer).terminate conn

/-- A finding is taken into the walk, and then the link makes of it what it has to. -/
theorem onFinding_eq {link : Link} {conn : ConnHandle} {peer : Peer}
    (known : link.peers.find? conn = some peer) (finding : Finding) :
    link.onFinding conn finding = peer.onFinding finding >>= link.follow conn := by
  unfold onFinding Registry.onFinding
  rw [known]
  simp only [Dialogue.bind_bind]
  congr 1
  funext result
  obtain ⟨peer', outcome⟩ := result
  cases outcome with
  | none => rfl
  | some outcome => cases outcome <;> rfl

/-- Only the last of the entries of a connection stays. -/
theorem refreshed_refreshed (link : Link) {peer peer' : Peer} (h : peer'.conn = peer.conn) :
    (link.refreshed peer).refreshed peer' = link.refreshed peer' := by
  unfold refreshed
  rw [Registry.put_put link.peers h]

/-- What the link makes of a finding does not depend on the entry that the connection had. -/
theorem follow_refreshed (link : Link) {conn : ConnHandle} {peer : Peer}
    {result : Peer × Option Outcome} (h : result.1.conn = peer.conn) :
    (link.refreshed peer).follow conn result = link.follow conn result := by
  obtain ⟨peer', outcome⟩ := result
  cases outcome with
  | none => simp only [follow, refreshed_refreshed link h]
  | some outcome => cases outcome <;> simp only [follow, refreshed_refreshed link h]

namespace Session

variable (database : Database) (conn : ConnHandle)

/-- The session after the walk of the connection asked for something. -/
def onward (link : Link) (asked : List Request) (queue : List Event)
    (d : Dialogue (Peer × Option Outcome)) : Session :=
  resume database conn (queue ++ (d.run agree ()).requests.flatMap (database.answer conn))
    (asked ++ (d.run agree ()).requests) (link.follow conn (d.run agree ()).value)

variable {database conn} {link : Link} {peer peer' old : Peer} {asked : List Request}
  {queue : List Event} {finding : Finding}

/-- An operation in two parts asks for things one part after the other. -/
theorem resume_bind {α : Type} (d : Dialogue α) (f : α → Dialogue (Link × Reaction)) :
    resume database conn queue asked (d >>= f) =
      resume database conn (queue ++ (d.run agree ()).requests.flatMap (database.answer conn))
        (asked ++ (d.run agree ()).requests) (f (d.run agree ()).value) := by
  unfold resume
  rw [Dialogue.requests_bind, Dialogue.run_bind, List.flatMap_append, List.append_assoc,
    List.append_assoc]

/-- A finding that waits is handed to the walk. -/
theorem leads_finding (known : link.peers.find? conn = some old) (hconn : peer.conn = conn) :
    Leads database conn ⟨link.refreshed peer, .discovery conn finding :: queue, asked⟩
      (onward database conn link asked queue (peer.onFinding finding)) := by
  have hknown : (link.refreshed peer).peers.find? conn = some peer := by
    subst hconn
    exact Registry.find?_put_self known
  have hwalk := Peer.walkStep_of_onFinding
    (Dialogue.yields_run agree (peer.onFinding finding) ())
  refine Leads.of_event ?_
  change Leads database conn
    (resume database conn queue asked ((link.refreshed peer).onFinding conn finding)) _
  rw [onFinding_eq hknown, resume_bind, follow_refreshed link hwalk.conn_eq]
  exact Leads.refl _

/-- An entry that the walk waits for is filed. -/
theorem leads_entry (known : link.peers.find? conn = some old) (hconn : peer.conn = conn)
    (expected : peer.progress.Expects finding) (entry : finding.status? = none)
    (h : peer.file finding = .ok peer') :
    Leads database conn ⟨link.refreshed peer, .discovery conn finding :: queue, asked⟩
      ⟨link.refreshed peer', queue, asked⟩ := by
  refine Leads.trans (leads_finding known hconn) ?_
  rw [Peer.onFinding_of_entry expected entry, h]
  simpa [onward, resume, follow, Peer.filed, Dialogue.Run.requests] using Leads.refl _

/-- The entries of an answer are filed, and then the walk asks on. -/
theorem leads_answer {entries : List Finding} {done : Finding}
    (h : entries.foldlM Peer.file peer = .ok peer') (known : link.peers.find? conn = some old)
    (hconn : peer.conn = conn)
    (expected : ∀ entry ∈ entries, peer.progress.Expects entry ∧ entry.status? = none)
    (hexpected : peer.progress.Expects done) (hdone : done.status? = some .success) :
    Leads database conn
      ⟨link.refreshed peer, (entries ++ [done]).map (.discovery conn), asked⟩
      (onward database conn link asked [] peer'.askOn) := by
  induction entries generalizing peer with
  | nil =>
    cases h
    rw [← Peer.onFinding_of_done hexpected hdone]
    exact leads_finding known hconn
  | cons entry entries ih =>
    obtain ⟨hentry, hstatus⟩ := expected entry List.mem_cons_self
    rw [List.foldlM_cons] at h
    cases hfile : peer.file entry with
    | error why =>
      rw [hfile] at h
      cases h
    | ok filed =>
      rw [hfile] at h
      have hfiled := Peer.file_eq_ok hfile
      have hprogress : filed.progress = peer.progress := by rw [hfiled]
      have hfiledConn : filed.conn = conn := by rw [hfiled, ← hconn]
      refine Leads.trans (leads_entry known hconn hentry hstatus hfile) (ih h hfiledConn ?_ ?_)
      · rw [hprogress]
        exact fun other hother => expected other (List.mem_cons_of_mem entry hother)
      · rwa [hprogress]

end Session

end Link

end CameraCentral
