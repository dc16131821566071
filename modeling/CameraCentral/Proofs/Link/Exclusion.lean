import CameraCentral.Proofs.Link.Change
import CameraCentral.Proofs.Link.Log

/-!
# Scanning and connecting

The radio cannot scan while it connects.  The link remembers that a connection attempt is under way
by its stage alone, and it takes a connection that is down for the one that was being made unless it
has a camera.  So the memory is lost when an old connection is reported to be down while an attempt
is under way: one that the link had forgotten before, because the host had refused to drop it.

`Run.exclusive` says that nothing else goes wrong.  Scanning and connecting do not overlap in a run
in which no connection is reported to be down while an attempt is under way; and once one is, the
next call for a scan is enough to make them overlap.  `late_disconnect` is such a run.
-/

namespace CameraCentral

namespace Link

/-! ## The camera's connection and no other -/

/-- No connection is registered but the camera's. -/
def Sole (link : Link) : Prop :=
  ∀ conn, (link.peers.find? conn).isSome → link.camera.conn = some conn

/-- Nobody is connected and no scan is running. -/
structure Vacant (link : Link) : Prop where
  camera : link.camera.conn = none
  peers : ∀ conn, link.peers.find? conn = none
  scanner : ¬ link.scanner.running

section

variable {link link' : Link} {call : Call} {exchanges : List Exchange} {response : Response}
  {conn : ConnHandle} {reaction : Reaction}

/-- Without a camera nothing is registered. -/
theorem Sole.find?_eq_none (sole : link.Sole) (free : link.camera.conn = none) (conn : ConnHandle) :
    link.peers.find? conn = none := by
  cases hfind : link.peers.find? conn with
  | none => rfl
  | some peer =>
    have mine := sole conn (by rw [hfind]; rfl)
    rw [free] at mine
    cases mine

/-- Dropping a connection registers none. -/
theorem Terminates.sole (h : link.Terminates conn exchanges link' reaction) (sole : link.Sole) :
    link'.Sole := by
  cases h with
  | accepted => exact sole
  | refused why =>
    intro other known
    rw [peers_dropLink, Registry.find?_erase] at known
    by_cases hother : other = conn
    · rw [if_pos hother] at known
      cases known
    · rw [if_neg hother] at known
      have mine := sole other known
      have howns : ¬ link.Owns conn := by
        rintro (hconn | ⟨free, -⟩)
        · exact hother (Option.some.inj (mine.symm.trans hconn))
        · exact free (by rw [Camera.IsConnected, mine]; rfl)
      rw [camera_dropLink, if_neg howns]
      exact mine

/-- A connection that comes up while there is no camera is the only one registered. -/
theorem sole_admitted {peers : Registry} {address : Address} (sole : link.Sole)
    (free : link.camera.conn = none) (added : link.peers.add conn address = .ok peers) :
    (link.admitted peers conn address).Sole := by
  intro other known
  change (peers.find? other).isSome at known
  rw [Registry.find?_of_add added] at known
  by_cases hother : other = conn
  · exact congrArg some hother.symm
  · rw [if_neg hother, sole.find?_eq_none free other] at known
    cases known

/-- Bringing an entry up to date registers no connection. -/
theorem sole_refreshed (peer : Peer) {old : Peer} (known : link.peers.find? peer.conn = some old)
    (sole : link.Sole) : (link.refreshed peer).Sole := by
  intro other hother
  rw [isSome_find?_refreshed peer known] at hother
  exact sole other hother

/-- **No turn registers a second connection**, as long as connections come up only while there is no
camera. -/
theorem Step.sole (h : Step link call exchanges link' response) (sole : link.Sole)
    (free : ∀ event, call.event? = some event → event.IsOutcome → link.camera.conn = none) :
    link'.Sole := by
  cases h with
  | scan step =>
    intro conn known
    rw [step.peers_eq] at known
    rw [step.camera_eq]
    exact sole conn known
  | ignored event h => exact sole
  | writeDenied payload why denied => exact sole
  | written payload conn handle _ _ _ _ answer => exact sole
  | unregistered conn address status success why full down => exact down.sole sole
  | securing conn address status success peers added =>
    exact sole_admitted sole (free _ rfl trivial) added
  | insecure conn address status success peers added why down =>
    exact down.sole (sole_admitted sole (free _ rfl trivial) added)
  | unencrypted conn status failed peer known down => exact down.sole sole
  | walkRunning conn status success peer known running =>
    obtain rfl := Registry.conn_of_find?_eq_some known
    exact sole_refreshed peer known sole
  | walkStarted conn status success peer known halted =>
    obtain rfl := Registry.conn_of_find?_eq_some known
    exact sole_refreshed { peer with services := [], progress := .services } known sole
  | walkRefused conn status success peer known halted why down =>
    obtain rfl := Registry.conn_of_find?_eq_some known
    exact down.sole (sole_refreshed { peer with services := [], progress := .failed } known sole)
  | disconnect conn reason => exact (Terminates.refused .busy).sole sole
  | pairingIgnored conn unknown => exact sole
  | pairingRetried conn peer known answer => exact sole
  | walkGoesOn conn finding peer peer' known exchanges walk =>
    exact sole_refreshed peer' (find?_of_walk known walk).2 sole
  | walkComplete conn finding peer peer' known exchanges writes walk count subscription =>
    intro other hother
    rw [peers_subscribed] at hother
    rw [conn_subscribed]
    exact sole_refreshed peer' (find?_of_walk known walk).2 sole other hother
  | walkFailed conn finding peer peer' known exchanges why walk down =>
    exact down.sole (sole_refreshed peer' (find?_of_walk known walk).2 sole)

/-! ## What a turn means for the radio -/

/-- A call that reports neither the outcome of a connection attempt nor the end of a connection. -/
def Call.IsPlain : Call → Prop
  | event e => e.IsPlain
  | startScan | stopScan | write _ | perform _ => True

/-- What a turn can mean for the radio. -/
inductive RadioStep (link : Link) (call : Call) (exchanges : List Exchange) (link' : Link) :
    Prop where
  | answered (event : Event) (h : call.event? = some event) (outcome : event.IsOutcome)
      (silent : ∀ x ∈ exchanges, ¬ x.request.NeedsRadio) :
    RadioStep link call exchanges link'
  | lost (conn : ConnHandle) (reason : Status) (h : call.event? = some (.disconnect conn reason))
      (silent : exchanges = []) (after : link' = (link.dropLink conn).1) :
    RadioStep link call exchanges link'
  | connecting (report : Advert.Report) (h : call.event? = some (.advertisement report))
      (free : ¬ link.Busy) (running : link.scanner.running)
      (asked : exchanges = [⟨.cancelScan, .accepted⟩,
        ⟨.connect report.address Settings.connectTimeoutMs, .accepted⟩])
      (camera : link'.camera = link.camera) (stopped : ¬ link'.scanner.running)
      (stage : link'.stage = .connecting) :
    RadioStep link call exchanges link'
  | other (plain : call.IsPlain) (unconnected : ∀ x ∈ exchanges, ¬ x.Connects)
      (free : ∀ x ∈ exchanges, x.request.NeedsRadio → ¬ link.Busy)
      (vacant : link.Vacant → (∀ x ∈ exchanges, ¬ x.request.NeedsRadio) →
        link'.Vacant ∧ (link'.stage = .connecting ↔ link.stage = .connecting)) :
    RadioStep link call exchanges link'

/-- Dropping a connection takes no radio. -/
theorem Terminates.silent (h : link.Terminates conn exchanges link' reaction) :
    ∀ x ∈ exchanges, ¬ x.request.NeedsRadio := by
  intro x hx
  rw [h.request_eq hx]
  simp [Request.NeedsRadio, Request.kind]

/-- A turn about a registered connection means nothing for the radio if its requests do not. -/
theorem RadioStep.of_known {peer : Peer} (known : link.peers.find? conn = some peer)
    (plain : call.IsPlain) (silent : ∀ x ∈ exchanges, ¬ x.request.NeedsRadio) :
    RadioStep link call exchanges link' := by
  refine .other plain (fun x hx hconnects => silent x hx (.inr hconnects.1))
    (fun x hx needs => absurd needs (silent x hx)) fun vacant _ => ?_
  rw [vacant.peers conn] at known
  cases known

/-- A turn that asks nothing of the radio and leaves camera, registry and an idle scanner as they
are. -/
theorem RadioStep.of_quiet (plain : call.IsPlain)
    (silent : ∀ x ∈ exchanges, ¬ x.request.NeedsRadio)
    (camera : link'.camera = link.camera) (peers : link'.peers = link.peers)
    (stopped : ¬ link.scanner.running → ¬ link'.scanner.running ∧
      (link'.stage = .connecting ↔ link.stage = .connecting)) :
    RadioStep link call exchanges link' := by
  refine .other plain (fun x hx hconnects => silent x hx (.inr hconnects.1))
    (fun x hx needs => absurd needs (silent x hx)) fun vacant _ => ?_
  obtain ⟨hrunning, hstage⟩ := stopped vacant.scanner
  exact ⟨⟨by rw [camera, vacant.camera], by rw [peers]; exact vacant.peers, hrunning⟩, hstage⟩

/-- A turn that asks for a scan. -/
theorem RadioStep.of_start {params : ScanParams} {answer : Answer}
    (plain : call.IsPlain) (free : ¬ link.Busy) :
    RadioStep link call [⟨.startScan params, answer⟩] link' := by
  refine .other plain ?_ (fun _ _ _ => free) fun _ silent => ?_
  · intro x hx hconnects
    obtain rfl := List.mem_singleton.1 hx
    cases hconnects.1
  · exact absurd (.inl rfl) (silent _ (List.mem_singleton.2 rfl))

/-- Ending a scan neither begins nor ends a connection attempt. -/
theorem stage_resting (link : Link) (scanner : Scanner) :
    (link.resting scanner).stage = .connecting ↔ link.stage = .connecting := by
  unfold resting
  by_cases hstage : link.stage = .scanning
  · simp [hstage]
  · simp [hstage]

/-- The turns about the scanner mean for the radio what `RadioStep` says. -/
theorem ScanStep.radio (h : ScanStep link call exchanges link' response) :
    RadioStep link call exchanges link' := by
  have hsilent : ∀ x ∈ ([] : List Exchange), ¬ x.request.NeedsRadio := by simp
  have hcancel : ∀ answer, ∀ x ∈ [(⟨.cancelScan, answer⟩ : Exchange)],
      ¬ x.request.NeedsRadio := by
    simp [Request.NeedsRadio, Request.kind]
  cases h with
  | startDeferred busy =>
    exact .of_quiet trivial hsilent rfl rfl fun stopped => ⟨stopped, Iff.rfl⟩
  | startRunning free running =>
    exact .of_quiet trivial hsilent rfl rfl fun stopped => absurd running stopped
  | startAccepted free stopped => exact .of_start trivial free
  | startRefused free stopped why => exact .of_start trivial free
  | stopIdle stopped =>
    exact .of_quiet trivial hsilent rfl rfl fun stopped => ⟨stopped, stage_resting _ _⟩
  | stopAccepted running =>
    exact .of_quiet trivial (hcancel _) rfl rfl fun stopped => absurd running stopped
  | stopRefused running why =>
    exact .of_quiet trivial (hcancel _) rfl rfl fun stopped => absurd running stopped
  | reportIgnored report h =>
    exact .of_quiet trivial hsilent rfl rfl fun stopped => ⟨stopped, Iff.rfl⟩
  | reportKept report running free isCamera why =>
    exact .of_quiet trivial (hcancel _) rfl rfl fun stopped => absurd running stopped
  | connectAccepted report running free isCamera =>
    exact .connecting report rfl free running rfl rfl (by simp) rfl
  | connectRefused report running free isCamera why =>
    refine .other trivial ?_ (fun _ _ _ => free) fun vacant _ => absurd running vacant.scanner
    simp [Exchange.Connects, Request.kind]
  | scanComplete reason =>
    exact .of_quiet trivial hsilent rfl rfl
      fun _ => ⟨by simp [resting, Scanner.complete], stage_resting _ _⟩
  | connectFailed conn address status failed => exact .answered _ rfl trivial hsilent
  | restartDeferred busy =>
    exact .of_quiet trivial hsilent rfl rfl fun stopped => ⟨stopped, Iff.rfl⟩
  | restartPointless free h =>
    exact .of_quiet trivial hsilent rfl rfl fun stopped => ⟨stopped, by simp [stopped]⟩
  | restartAccepted free wanted stopped => exact .of_start trivial free
  | restartRefused free wanted stopped why => exact .of_start trivial free

/-- Every request that takes the radio is one to scan or to connect, and a walk makes neither. -/
theorem silent_of_walk {finding : Finding} {peer peer' : Peer} {outcome : Option Outcome}
    (walk : peer.WalkStep finding exchanges peer' outcome) :
    ∀ x ∈ exchanges, ¬ x.request.NeedsRadio := by
  rintro x hx (needs | needs)
  · rcases walk.request_kind hx with h | h
    · cases h.symm.trans needs
    · cases h.symm.trans needs
  · rcases walk.request_kind hx with h | h
    · cases h.symm.trans needs
    · cases h.symm.trans needs

/-- **What a turn means for the radio.** -/
theorem Step.radio (h : Step link call exchanges link' response) :
    RadioStep link call exchanges link' := by
  cases h with
  | scan step => exact step.radio
  | ignored event h =>
    refine .of_quiet ?_ (by simp) rfl rfl fun stopped => ⟨stopped, Iff.rfl⟩
    cases event <;> first | exact h.elim | trivial
  | writeDenied payload why denied =>
    exact .of_quiet trivial (by simp) rfl rfl fun stopped => ⟨stopped, Iff.rfl⟩
  | written payload conn handle _ _ _ _ answer =>
    exact .of_quiet trivial
      (by simp [Request.NeedsRadio, Request.kind]) rfl rfl fun stopped => ⟨stopped, Iff.rfl⟩
  | unregistered conn address status success why full down =>
    exact .answered _ rfl trivial down.silent
  | securing conn address status success peers added =>
    exact .answered _ rfl trivial (by simp [Request.NeedsRadio, Request.kind])
  | insecure conn address status success peers added why down =>
    refine .answered _ rfl trivial fun x hx => ?_
    rcases List.mem_cons.1 hx with rfl | hx
    · simp [Request.NeedsRadio, Request.kind]
    · exact down.silent x hx
  | unencrypted conn status failed peer known down =>
    exact .of_known known trivial down.silent
  | walkRunning conn status success peer known running =>
    exact .of_known known trivial (by simp)
  | walkStarted conn status success peer known halted =>
    exact .of_known known trivial (by simp [Request.NeedsRadio, Request.kind])
  | walkRefused conn status success peer known halted why down =>
    refine .of_known known trivial fun x hx => ?_
    rcases List.mem_cons.1 hx with rfl | hx
    · simp [Request.NeedsRadio, Request.kind]
    · exact down.silent x hx
  | disconnect conn reason => exact .lost conn reason rfl rfl rfl
  | pairingIgnored conn unknown =>
    exact .of_quiet trivial (by simp) rfl rfl fun stopped => ⟨stopped, Iff.rfl⟩
  | pairingRetried conn peer known answer =>
    exact .of_known known trivial (by simp [Request.NeedsRadio, Request.kind])
  | walkGoesOn conn finding peer peer' known exchanges walk =>
    exact .of_known known trivial (silent_of_walk walk)
  | walkComplete conn finding peer peer' known exchanges writes walk count subscription =>
    refine .of_known known trivial fun x hx => ?_
    rcases List.mem_append.1 hx with hx | hx
    · exact silent_of_walk walk x hx
    · obtain ⟨handle, data, hwrite⟩ := Peer.subscribeAll_request subscription x hx
      simp [hwrite, Request.NeedsRadio, Request.kind]
  | walkFailed conn finding peer peer' known exchanges why walk down =>
    refine .of_known known trivial fun x hx => ?_
    rcases List.mem_append.1 hx with hx | hx
    · exact silent_of_walk walk x hx
    · exact down.silent x hx

end

/-! ## In order -/

variable {history : List Turn} {turn : Turn} {scanner : Scanner} {link : Link}

/-- What a plain call and requests that begin no connection attempt add to the log is plain. -/
theorem Turn.isPlain_of_mem_log (plain : turn.call.direct.IsPlain)
    (unconnected : ∀ x ∈ turn.exchanges, ¬ x.Connects) : ∀ entry ∈ turn.log, entry.IsPlain := by
  intro entry hentry
  rcases List.mem_append.1 hentry with hentry | hentry
  · have hplain : ∀ event, turn.call.event? = some event → event.IsPlain := by
      intro event hevent
      rw [← Call.event?_direct] at hevent
      generalize turn.call.direct = call at plain hevent
      cases call with
      | event e =>
        cases hevent
        exact plain
      | startScan | stopScan | write _ | perform _ => cases hevent
    simp only [Option.mem_toList, Option.map_eq_some_iff] at hentry
    obtain ⟨event, hevent, rfl⟩ := hentry
    exact ⟨id, (hplain event hevent).not_isOutcome, (hplain event hevent).disconnected?_eq_none⟩
  · obtain ⟨x, hx, rfl⟩ := List.mem_map.1 hentry
    exact ⟨unconnected x hx, id, rfl⟩

/-- An outcome is reported only while a connection attempt is under way. -/
theorem pending_of_outcome (answering : Answering (log (history ++ [turn]))) {event : Event}
    (h : turn.call.event? = some event) (outcome : event.IsOutcome) : Pending (log history) := by
  rw [log_concat] at answering
  obtain ⟨-, hturn⟩ := throughout_append_iff.1 answering
  have hfirst := hturn [] (.told event) (turn.exchanges.map .asked) (by simp [Turn.log, h]) outcome
  rwa [List.append_nil] at hfirst

/-- In a plain turn nothing is asked of the radio while a connection attempt is under way. -/
theorem silent_of_pending (exclusive : Exclusive (log (history ++ [turn])))
    (plain : ∀ entry ∈ turn.log, entry.IsPlain) (pending : Pending (log history)) :
    ∀ x ∈ turn.exchanges, ¬ x.request.NeedsRadio := by
  intro x hx needs
  rw [log_concat] at exclusive
  obtain ⟨-, hturn⟩ := throughout_append_iff.1 exclusive
  have hmem : Entry.asked x ∈ turn.log := List.mem_append_right _ (List.mem_map_of_mem hx)
  obtain ⟨earlier, later, heq⟩ := List.append_of_mem hmem
  refine hturn earlier (.asked x) later heq needs
    ((pending_append_iff fun entry hentry => ?_).2 pending)
  exact plain entry (by simp [heq, hentry])

/-- How the link remembers a connection attempt that is under way. -/
structure Orderly (history : List Turn) (link : Link) : Prop where
  sole : link.Sole
  single : connects (log history) ≤ answers (log history) + 1
  vacant : Pending (log history) → link.Vacant
  stage : Pending (log history) → (link.stage = .connecting ↔ Undisturbed (log history))

theorem orderly_new (scanner : Scanner) : Orderly [] (new scanner) where
  sole conn known := by cases known
  single := Nat.zero_le _
  vacant pending := by cases pending
  stage pending := by cases pending

/-- The outcome of the one connection attempt that is under way ends it. -/
theorem Orderly.settled (h : Orderly history turn.before) {event : Event}
    (hevent : turn.call.event? = some event) (outcome : event.IsOutcome)
    (silent : ∀ x ∈ turn.exchanges, ¬ x.request.NeedsRadio) :
    connects (log (history ++ [turn])) ≤ answers (log (history ++ [turn])) := by
  have hlog : turn.log = [.told event] ++ turn.exchanges.map .asked := by
    simp [Turn.log, hevent]
  have hplain : ∀ entry ∈ turn.exchanges.map Entry.asked, entry.IsPlain := by
    intro entry hentry
    obtain ⟨x, hx, rfl⟩ := List.mem_map.1 hentry
    exact ⟨fun hconnects => silent x hx (.inr hconnects.1), id, rfl⟩
  have hanswers : answers [Entry.told event] = 1 := by simp [answers, Entry.Answers, outcome]
  have hconnects : connects [Entry.told event] = 0 := rfl
  rw [log_concat, hlog]
  simp only [connects_append, answers_append, connects_eq_zero hplain, answers_eq_zero hplain,
    hconnects, hanswers]
  exact h.single

/-- When a connection is down nobody is connected if nobody was before. -/
theorem Vacant.dropLink (h : link.Vacant) (conn : ConnHandle) : (link.dropLink conn).1.Vacant where
  camera := by
    rw [camera_dropLink]
    by_cases howns : link.Owns conn
    · rw [if_pos howns]
    · rw [if_neg howns, h.camera]
  peers other := by
    rw [peers_dropLink, Registry.find?_erase, h.peers other]
    exact ite_self none
  scanner := by
    rw [scanner_dropLink]
    exact h.scanner

/-- A connection that is down while nobody is connected is taken for the one that was being made,
and no connection attempt is remembered any more. -/
theorem Vacant.stage_dropLink_ne (h : link.Vacant) (conn : ConnHandle) :
    (link.dropLink conn).1.stage ≠ .connecting := by
  rw [stage_dropLink]
  intro hconnecting
  by_cases hours : (link.peers.find? conn).isSome ∨ link.Owns conn
  · rw [if_pos hours] at hconnecting
    cases hconnecting
  · rw [if_neg hours] at hconnecting
    have hfree : ¬ link.camera.IsConnected := by
      rw [Camera.IsConnected, h.camera]
      exact Bool.false_ne_true
    exact hours (.inr (.inr ⟨hfree, hconnecting⟩))

/-- **A turn keeps the link in order.** -/
theorem Orderly.concat (h : Orderly history turn.before)
    (answering : Answering (log (history ++ [turn])))
    (exclusive : Exclusive (log (history ++ [turn]))) :
    Orderly (history ++ [turn]) turn.after := by
  have sole : turn.after.Sole := by
    refine turn.step.sole h.sole fun event hevent outcome => ?_
    rw [Call.event?_direct] at hevent
    exact (h.vacant (pending_of_outcome answering hevent outcome)).camera
  have hsingle := h.single
  cases turn.step.radio with
  | answered event hevent outcome silent =>
    rw [Call.event?_direct] at hevent
    have hsettled := h.settled hevent outcome silent
    have hpending : ¬ Pending (log (history ++ [turn])) := Nat.not_lt.2 hsettled
    exact ⟨sole, Nat.le_succ_of_le hsettled, fun pending => absurd pending hpending,
      fun pending => absurd pending hpending⟩
  | lost conn reason hevent hsilent hafter =>
    rw [Call.event?_direct] at hevent
    have hlog : log (history ++ [turn]) = log history ++ [.told (.disconnect conn reason)] := by
      simp [Turn.log, hevent, hsilent]
    have hconnects : connects (log (history ++ [turn])) = connects (log history) := by
      rw [hlog, connects_append]
      rfl
    have hanswers : answers (log (history ++ [turn])) = answers (log history) := by
      rw [hlog, answers_append]
      rfl
    have hvacant : Pending (log (history ++ [turn])) → turn.before.Vacant := by
      unfold Pending
      rw [hconnects, hanswers]
      exact h.vacant
    have hdisturbed : ¬ Undisturbed (log (history ++ [turn])) := by
      rw [hlog]
      intro hundisturbed
      rcases since_concat_iff.1 hundisturbed with hconnects | ⟨hup, -⟩
      · exact hconnects
      · exact hup rfl
    rw [hafter] at sole ⊢
    refine ⟨sole, by rwa [hconnects, hanswers], fun pending => (hvacant pending).dropLink conn,
      fun pending => ⟨fun hstage => ?_, fun hundisturbed => absurd hundisturbed hdisturbed⟩⟩
    exact absurd hstage ((hvacant pending).stage_dropLink_ne conn)
  | connecting report hevent free running hasked hcamera stopped hstage =>
    rw [Call.event?_direct] at hevent
    have hidle : ¬ Pending (log history) := fun pending => (h.vacant pending).scanner running
    have hfree : turn.after.camera.conn = none := by
      rw [hcamera]
      have hconnected : ¬ turn.before.camera.IsConnected := fun hconnected => free (.inl hconnected)
      simpa [Camera.IsConnected] using hconnected
    have hlog : log (history ++ [turn]) = (log history ++
        [.told (.advertisement report), .asked ⟨.cancelScan, .accepted⟩]) ++
          [.asked ⟨.connect report.address Settings.connectTimeoutMs, .accepted⟩] := by
      simp [Turn.log, hevent, hasked]
    refine ⟨sole, ?_, fun _ => ⟨hfree, sole.find?_eq_none hfree, stopped⟩, fun _ => ?_⟩
    · rw [hlog]
      simp only [connects_append, answers_append]
      change connects (log history) + 0 + 1 ≤ answers (log history) + 0 + 0 + 1
      unfold Pending at hidle
      omega
    · rw [hlog]
      exact ⟨fun _ => since_concat_iff.2 (.inl ⟨rfl, rfl⟩), fun _ => hstage⟩
  | other plain unconnected free vacant =>
    have hplain := Turn.isPlain_of_mem_log plain unconnected
    have hpending : Pending (log (history ++ [turn])) ↔ Pending (log history) := by
      rw [log_concat]
      exact pending_append_iff hplain
    have hafter : Pending (log history) → turn.after.Vacant ∧
        (turn.after.stage = .connecting ↔ turn.before.stage = .connecting) := fun pending =>
      vacant (h.vacant pending) (silent_of_pending exclusive hplain pending)
    refine ⟨sole, ?_, fun pending => (hafter (hpending.1 pending)).1, fun pending => ?_⟩
    · rw [log_concat, connects_append, answers_append, connects_eq_zero hplain,
        answers_eq_zero hplain]
      exact hsingle
    · rw [(hafter (hpending.1 pending)).2, h.stage (hpending.1 pending), log_concat]
      exact (undisturbed_append_iff hplain).symm

/-- In a run in which outcomes answer connection attempts the link is in order as long as scanning
and connecting do not overlap. -/
theorem Run.orderly (run : Run (new scanner) history link) (answering : Answering (log history))
    (exclusive : Exclusive (log history)) : Orderly history link := by
  refine run.invariant
    (fun history link => Answering (log history) → Exclusive (log history) → Orderly history link)
    (fun _ _ => orderly_new scanner) ?_ answering exclusive
  intro history turn ih answering exclusive
  refine Orderly.concat (ih ?_ ?_) answering exclusive
  · rw [log_concat] at answering
    exact (throughout_append_iff.1 answering).1
  · rw [log_concat] at exclusive
    exact (throughout_append_iff.1 exclusive).1

/-! ## Exclusion -/

/-- Nothing is asked of the radio while the link is busy. -/
theorem RadioStep.not_busy {link' : Link} {call : Call} {exchanges : List Exchange}
    (h : RadioStep link call exchanges link') {x : Exchange} (hx : x ∈ exchanges)
    (needs : x.request.NeedsRadio) : ¬ link.Busy := by
  cases h with
  | answered event hevent outcome silent => exact absurd needs (silent x hx)
  | lost conn reason hevent silent after =>
    rw [silent] at hx
    cases hx
  | connecting report hevent free running asked camera stopped stage => exact free
  | other plain unconnected free vacant => exact free x hx needs

/-- What stands in the log of a turn before something is asked of the radio is plain. -/
theorem Turn.isPlain_before {earlier later : List Entry} {entry : Entry}
    (heq : turn.log = earlier ++ entry :: later) (needs : entry.NeedsRadio) :
    ∀ e ∈ earlier, e.IsPlain := by
  have hx : ∃ x ∈ turn.exchanges, x.request.NeedsRadio := by
    have hmem : entry ∈ turn.log := by simp [heq]
    rcases List.mem_append.1 hmem with hmem | hmem
    · simp only [Option.mem_toList, Option.map_eq_some_iff] at hmem
      obtain ⟨event, -, rfl⟩ := hmem
      exact needs.elim
    · obtain ⟨x, hx, rfl⟩ := List.mem_map.1 hmem
      exact ⟨x, hx, needs⟩
  obtain ⟨x, hx, hneeds⟩ := hx
  cases turn.step.radio with
  | answered event hevent outcome silent => exact absurd hneeds (silent x hx)
  | lost conn reason hevent silent after =>
    rw [silent] at hx
    cases hx
  | connecting report hevent free running asked camera stopped stage =>
    rw [Call.event?_direct] at hevent
    have hlog : turn.log = [.told (.advertisement report), .asked ⟨.cancelScan, .accepted⟩] ++
        [.asked ⟨.connect report.address Settings.connectTimeoutMs, .accepted⟩] := by
      simp [Turn.log, hevent, asked]
    have hplain : ∀ e ∈ [Entry.told (.advertisement report), .asked ⟨.cancelScan, .accepted⟩],
        e.IsPlain := by
      intro e he
      simp only [List.mem_cons, List.not_mem_nil, or_false] at he
      rcases he with rfl | rfl
      · exact ⟨id, id, rfl⟩
      · exact ⟨by simp [Entry.Connects, Exchange.Connects, Request.kind], id, rfl⟩
    intro e he
    rw [hlog] at heq
    rcases List.append_eq_append_iff.1 heq.symm with ⟨middle, hfirst, -⟩ | ⟨middle, hfirst, hrest⟩
    · exact hplain e (by rw [hfirst]; exact List.mem_append_left _ he)
    · cases middle with
      | nil =>
        rw [List.append_nil] at hfirst
        exact hplain e (hfirst ▸ he)
      | cons b middle =>
        simp at hrest
  | other plain unconnected free vacant =>
    intro e he
    exact Turn.isPlain_of_mem_log plain unconnected e (by simp [heq, he])

/-- While the link remembers the connection attempt that is under way, scanning and connecting do
not overlap in the next turn. -/
theorem Orderly.exclusive_concat (h : Orderly history turn.before)
    (exclusive : Exclusive (log history))
    (undisturbed : Pending (log history) → Undisturbed (log history)) :
    Exclusive (log (history ++ [turn])) := by
  rw [log_concat]
  refine throughout_append_iff.2 ⟨exclusive, fun earlier entry later heq needs => ?_⟩
  rw [pending_append_iff (Turn.isPlain_before heq needs)]
  intro pending
  have busy : turn.before.Busy := .inr ((h.stage pending).2 (undisturbed pending))
  have hmem : entry ∈ turn.log := by simp [heq]
  rcases List.mem_append.1 hmem with hmem | hmem
  · simp only [Option.mem_toList, Option.map_eq_some_iff] at hmem
    obtain ⟨event, -, rfl⟩ := hmem
    exact needs
  · obtain ⟨x, hx, rfl⟩ := List.mem_map.1 hmem
    exact turn.step.radio.not_busy hx needs busy

/-- A call for a scan is carried out when nobody is connected, no scan is running, and no connection
attempt is remembered. -/
theorem startScan_of_vacant (vacant : link.Vacant) (stage : link.stage ≠ .connecting) :
    ⟨.startScan link.scanner.params, .accepted⟩ ∈
      (Turn.against Script.reply {} link .startScan).exchanges := by
  have free : ¬ link.Busy := by
    rintro (hconnected | hconnecting)
    · rw [Camera.IsConnected, vacant.camera] at hconnected
      cases hconnected
    · exact stage hconnecting
  have hstart : link.scanner.start =
      Scanner.launch { link.scanner with wanted := true, devices := [] } := by
    rw [Scanner.start, if_neg vacant.scanner]
  change _ ∈ ((Call.dialogue link .startScan).run Script.reply {}).exchanges
  unfold Call.dialogue startScan
  rw [if_neg free, hstart]
  exact List.mem_cons_self

/-- In a run in which outcomes answer connection attempts scanning and connecting do not overlap as
long as no connection is reported to be down while an attempt is under way. -/
theorem Run.exclusive_of_calm (run : Run (new scanner) history link)
    (answering : Answering (log history)) (calm : Calm (log history)) :
    Exclusive (log history) := by
  suffices h : Orderly history link ∧ Exclusive (log history) from h.2
  refine run.invariant (fun history link => Answering (log history) → Calm (log history) →
    Orderly history link ∧ Exclusive (log history)) ?_ ?_ answering calm
  · exact fun _ _ => ⟨orderly_new scanner, throughout_nil _⟩
  · intro history turn ih answering calm
    have hanswering := answering
    rw [log_concat] at hanswering calm
    have hcalm : Calm (log history) := (throughout_append_iff.1 calm).1
    obtain ⟨orderly, exclusive⟩ := ih (throughout_append_iff.1 hanswering).1 hcalm
    have hnext : Exclusive (log (history ++ [turn])) :=
      orderly.exclusive_concat exclusive (undisturbed_of_calm _ hcalm)
    exact ⟨orderly.concat answering hnext, hnext⟩

/-- **Scanning and connecting do not overlap** in a run of a new link in which outcomes answer
connection attempts and no connection is reported to be down while an attempt is under way.  And as
long as they have not overlapped, they cannot in the next turn while an attempt is under way exactly
if no connection was reported to be down since the host took the attempt on. -/
theorem Run.exclusive (run : Run (new scanner) history link) (answering : Answering (log history)) :
    (Calm (log history) → Exclusive (log history)) ∧
      (Exclusive (log history) → Pending (log history) →
        ((∀ turn : Turn, turn.before = link → ∀ x ∈ turn.exchanges, ¬ x.request.NeedsRadio) ↔
          Undisturbed (log history))) := by
  refine ⟨run.exclusive_of_calm answering, fun exclusive pending => ?_⟩
  have h : Orderly history link := run.orderly answering exclusive
  constructor
  · intro silent
    refine (h.stage pending).1 (Decidable.byContradiction fun hstage => ?_)
    exact silent _ rfl _ (startScan_of_vacant (h.vacant pending) hstage) (.inl rfl)
  · rintro undisturbed turn rfl x hx needs
    exact turn.step.radio.not_busy hx needs (.inr ((h.stage pending).2 undisturbed))

/-! ### A late report -/

/-- A camera announces itself. -/
def sighting : Advert.Report :=
  .receive sampleAddress (-50) [0x03, 0x03, 0xA6, 0xFE]

/-- A camera is looked for and seen, and the host takes on to connect to it. -/
def search : List (Call × Script) :=
  [(.startScan, {}), (.event (.advertisement sighting), {})]

/-- After the search nothing is asked of the radio until the outcome is reported. -/
theorem exclusive_search :
    let history := playback (new {}) search
    Run (new {}) history (after (new {}) search) ∧ Answering (log history) ∧
      Exclusive (log history) ∧ ∀ turn : Turn, turn.before = after (new {}) search →
        ∀ x ∈ turn.exchanges, ¬ x.request.NeedsRadio := by
  intro history
  have run : Run (new {}) history (after (new {}) search) := run_playback (new {}) search
  have answering : Answering (log history) := by decide
  obtain ⟨hcalm, hpending⟩ := Run.exclusive run answering
  have exclusive : Exclusive (log history) := hcalm (by decide)
  exact ⟨run, answering, exclusive, (hpending exclusive (by decide)).2 (by decide)⟩

/-- The camera found by the search is connected to.  It cannot be encrypted, and the host refuses to
drop it, so the link forgets it and connects to a camera once more.  Then the first connection is
reported to be down, and somebody asks for a scan. -/
def lateReport : List (Call × Script) :=
  [(.event (.linkEstablished 5 sampleAddress .success), {}),
    (.event (.encryptionChange 5 ⟨1⟩), { rules := [(.terminate, ⟨.busy, 0, none⟩)] }),
    (.event .scanRestartDue, {}), (.event (.advertisement sighting), {}),
    (.event (.disconnect 5 ⟨8⟩), {}), (.startScan, {})]

/-- A late report that a connection is down makes scanning and connecting overlap, although every
report is about something that happened. -/
theorem late_disconnect :
    let history := playback (new {}) (search ++ lateReport)
    Run (new {}) history (after (new {}) (search ++ lateReport)) ∧ Answering (log history) ∧
      Disconnecting (log history) ∧ ¬ Exclusive (log history) := by
  intro history
  have answering : Answering (log history) := by decide +kernel
  have disconnecting : Disconnecting (log history) := by decide +kernel
  have overlaps : ¬ Exclusive (log history) := by decide +kernel
  exact ⟨run_playback (new {}) (search ++ lateReport), answering, disconnecting, overlaps⟩

end Link

end CameraCentral
