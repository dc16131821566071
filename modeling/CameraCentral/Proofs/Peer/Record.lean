import CameraCentral.Proofs.Peer.Agenda

/-!
# The record of a walk

A walk begins with an empty database and enters what is reported to it while it waits for it.  If an
entry cannot be entered the walk is over, and the fault is its outcome.  So the database with which
a complete walk ends is the record of the walk: all the entries that were reported to it in their
order, without a gap (`Run.records`).

What is entered is told by `Finding.enter`, which knows nothing of tables that can be full, and what
cannot be entered by `Finding.refusal?`.
-/

namespace CameraCentral

/-- A walk that is under way has not failed. -/
theorem Progress.InFlight.ne_failed {progress : Progress} (running : progress.InFlight) :
    progress ≠ .failed := by
  rintro rfl
  exact running

namespace Peer

variable {peer peer' : Peer} {finding : Finding} {exchanges : List Exchange}
  {outcome : Option Outcome}

/-- Asking on leaves the database as it is. -/
theorem AskStep.services_eq (step : AskStep peer exchanges peer' outcome) :
    peer'.services = peer.services := by
  cases step <;> rfl

/-- An entry that a walk waits for is entered, or refused. -/
theorem WalkStep.of_entry (walk : peer.WalkStep finding exchanges peer' outcome)
    (expected : peer.progress.Expects finding) (entry : finding.status? = none) :
    finding.refusal? peer.services = none ∧ peer'.services = finding.enter peer.services ∨
      ∃ why, finding.refusal? peer.services = some why ∧ outcome = some (.failed why) ∧
        peer'.progress = .failed := by
  cases walk with
  | unexpected unexpected => exact absurd expected unexpected
  | filed _ _ _ h =>
    obtain ⟨fits, rfl⟩ := file_eq_ok_iff.1 h
    exact .inl ⟨fits, rfl⟩
  | unfiled _ _ why h => exact .inr ⟨why, file_eq_error_iff.1 h, rfl, rfl⟩
  | broken _ status done _ | goesOn _ status done _ _ _ =>
    rw [entry] at done
    cases done

/-- A finding that is no entry, or that a walk does not wait for, leaves the database as it is. -/
theorem WalkStep.services_eq (walk : peer.WalkStep finding exchanges peer' outcome)
    (h : ¬ (peer.progress.Expects finding ∧ finding.status? = none)) :
    peer'.services = peer.services := by
  cases walk with
  | unexpected unexpected => rfl
  | filed expected entry _ _ | unfiled expected entry _ _ => exact absurd ⟨expected, entry⟩ h
  | broken expected status done failed => rfl
  | goesOn expected status done success yields step => exact step.services_eq

end Peer

namespace Registry

variable {conn : ConnHandle} {turn : Turn} {past : List Turn} {peer peer' : Peer}
  {finding : Finding} {outcome : Option Outcome}

/-! ## Entries in a run -/

/-- The entry about a connection that is reported in a turn while the walk waits for it. -/
def Turn.entry? (conn : ConnHandle) (turn : Turn) : Option Finding := do
  let finding ← turn.finding? conn
  let peer ← turn.before.find? conn
  if peer.progress.Expects finding ∧ finding.status? = none then some finding else none

/-- Why the entry that is reported in a turn cannot be entered, if it cannot be. -/
def Turn.refusal? (conn : ConnHandle) (turn : Turn) : Option Fault := do
  let entry ← turn.entry? conn
  let peer ← turn.before.find? conn
  entry.refusal? peer.services

/-- The database that the entries of a history make up, from an empty one. -/
def record (conn : ConnHandle) (history : List Turn) : List Service :=
  (history.filterMap (Turn.entry? conn)).foldl Finding.enter []

/-- What is no finding about the connection is no entry. -/
theorem entry?_of_finding?_eq_none (h : turn.finding? conn = none) : turn.entry? conn = none := by
  rw [Turn.entry?, h]
  rfl

/-- What is no entry is not refused. -/
theorem refusal?_of_entry?_eq_none (h : turn.entry? conn = none) : turn.refusal? conn = none := by
  rw [Turn.refusal?, h]
  rfl

theorem entry?_eq (known : turn.before.find? conn = some peer)
    (hfinding : turn.finding? conn = some finding) :
    turn.entry? conn =
      if peer.progress.Expects finding ∧ finding.status? = none then some finding else none := by
  rw [Turn.entry?, hfinding, known]
  rfl

theorem refusal?_eq {entry : Finding} (known : turn.before.find? conn = some peer)
    (hentry : turn.entry? conn = some entry) :
    turn.refusal? conn = entry.refusal? peer.services := by
  rw [Turn.refusal?, hentry, known]
  rfl

/-- A turn without an entry adds nothing to the record. -/
theorem record_concat_of_none (h : turn.entry? conn = none) :
    record conn (past ++ [turn]) = record conn past := by
  simp [record, h]

/-- A turn with an entry adds it to the record. -/
theorem record_concat_of_some {entry : Finding} (h : turn.entry? conn = some entry) :
    record conn (past ++ [turn]) = entry.enter (record conn past) := by
  simp [record, h]

/-- In this turn the walk of a connection ends with a fault. -/
def Turn.Breaks (conn : ConnHandle) (why : Fault) (turn : Turn) : Prop :=
  turn.Reports conn (.failed why) ∧
    ∃ ended, turn.after.find? conn = some ended ∧ ended.progress = .failed

/-- A walk that has kept the record so far: every entry that was refused has ended it, and unless it
has failed no entry was refused, and its database is the record. -/
structure Recorded (conn : ConnHandle) (past : List Turn) (peer : Peer) : Prop where
  breaks : ∀ turn ∈ past, ∀ why, turn.refusal? conn = some why → turn.Breaks conn why
  whole : peer.progress ≠ .failed → (∀ turn ∈ past, turn.refusal? conn = none) ∧
    peer.services = record conn past

/-- A turn without an entry leaves the record as it is. -/
theorem Recorded.concat_of_none (recorded : Recorded conn past peer)
    (hentry : turn.entry? conn = none) (services : peer'.services = peer.services)
    (failed : peer.progress = .failed → peer'.progress = .failed) :
    Recorded conn (past ++ [turn]) peer' := by
  have hfits : turn.refusal? conn = none := refusal?_of_entry?_eq_none hentry
  refine ⟨List.forall_mem_append.2 ⟨recorded.breaks, ?_⟩, fun going => ?_⟩
  · refine List.forall_mem_singleton.2 fun why hwhy => ?_
    rw [hfits] at hwhy
    cases hwhy
  · obtain ⟨hall, hservices⟩ := recorded.whole fun h => going (failed h)
    refine ⟨List.forall_mem_append.2 ⟨hall, List.forall_mem_singleton.2 hfits⟩, ?_⟩
    rw [services, hservices, record_concat_of_none hentry]

/-- A turn with an entry that can be entered adds it to the record. -/
theorem Recorded.concat_of_fits (recorded : Recorded conn past peer)
    (going : peer.progress ≠ .failed) {entry : Finding} (hentry : turn.entry? conn = some entry)
    (hfits : turn.refusal? conn = none)
    (services : peer'.services = entry.enter peer.services) :
    Recorded conn (past ++ [turn]) peer' := by
  obtain ⟨hall, hservices⟩ := recorded.whole going
  refine ⟨List.forall_mem_append.2 ⟨recorded.breaks, ?_⟩, fun _ => ⟨?_, ?_⟩⟩
  · refine List.forall_mem_singleton.2 fun why hwhy => ?_
    rw [hfits] at hwhy
    cases hwhy
  · exact List.forall_mem_append.2 ⟨hall, List.forall_mem_singleton.2 hfits⟩
  · rw [services, hservices, record_concat_of_some hentry]

/-- A turn with an entry that ends the walk with the fault for which it is refused. -/
theorem Recorded.concat_of_breaks (recorded : Recorded conn past peer) {why : Fault}
    (hrefused : turn.refusal? conn = some why) (breaks : turn.Breaks conn why)
    (failed : peer'.progress = .failed) : Recorded conn (past ++ [turn]) peer' := by
  refine ⟨List.forall_mem_append.2 ⟨recorded.breaks, ?_⟩, fun going => absurd failed going⟩
  refine List.forall_mem_singleton.2 fun why' hwhy => ?_
  obtain rfl : why = why' := Option.some.inj (hrefused.symm.trans hwhy)
  exact breaks

/-- **A finding that is taken into a walk keeps the record.** -/
theorem Recorded.walk (recorded : Recorded conn past peer)
    (known : turn.before.find? conn = some peer) (hfinding : turn.finding? conn = some finding)
    (hresponse : turn.response = .outcome outcome)
    (walk : peer.WalkStep finding turn.exchanges peer' outcome)
    (hafter : turn.after.find? conn = some peer') : Recorded conn (past ++ [turn]) peer' := by
  by_cases hentry : peer.progress.Expects finding ∧ finding.status? = none
  · have hsome : turn.entry? conn = some finding := by rw [entry?_eq known hfinding, if_pos hentry]
    have hrefusal : turn.refusal? conn = finding.refusal? peer.services := refusal?_eq known hsome
    obtain ⟨expected, entry⟩ := hentry
    rcases walk.of_entry expected entry with ⟨fits, henter⟩ | ⟨why, refused, rfl, hfailed⟩
    · have running : peer.progress.InFlight := Progress.inFlight_of_expects expected
      exact recorded.concat_of_fits running.ne_failed hsome (hrefusal.trans fits) henter
    · have reports : turn.Reports conn (.failed why) := ⟨by rw [hfinding]; rfl, hresponse⟩
      exact recorded.concat_of_breaks (hrefusal.trans refused) ⟨reports, peer', hafter, hfailed⟩
        hfailed
  · have hnone : turn.entry? conn = none := by rw [entry?_eq known hfinding, if_neg hentry]
    refine recorded.concat_of_none hnone (walk.services_eq hentry) fun hfailed => ?_
    have halted : ¬ peer.progress.InFlight := fun running => running.ne_failed hfailed
    obtain ⟨-, rfl, -⟩ := walk.of_not_inFlight halted
    exact hfailed

/-! ## Runs -/

variable {start registry : Registry} {first : Turn} {history : List Turn}

/-- While a connection is left to its events its walk keeps the record. -/
theorem Run.recorded (run : Run start history registry) (known : start.find? conn = some peer)
    (left : LeftToEvents conn history) (empty : peer.services = []) :
    ∃ walked, registry.find? conn = some walked ∧ Recorded conn history walked := by
  refine run.follow known left (Recorded conn) ⟨by simp, fun _ => ⟨by simp, empty⟩⟩ ?_ ?_
  · intro past turn peer hfinding hsilent recorded
    exact recorded.concat_of_none (entry?_of_finding?_eq_none hfinding) rfl id
  · intro past turn peer finding peer' outcome known hfinding hresponse hall walk hafter recorded
    exact recorded.walk known hfinding hresponse walk hafter

/-- **No entry is lost, duplicated, or mixed with an older database.**  Let a walk be accepted for a
connection, and let the connection be left to its events after that.  Then every entry that is
reported while the walk waits for it and cannot be entered ends the walk with the fault.  And if the
walk is reported to be complete, then no entry was refused, and the database at the end is the
record of all entries. -/
theorem Run.records (starts : first.call = .discoverAll conn)
    (accepted : first.response = .result (.ok ())) (run : Run first.after history registry)
    (left : LeftToEvents conn history) :
    (∀ turn ∈ history, ∀ why, turn.refusal? conn = some why → turn.Breaks conn why) ∧
    ((∃ turn ∈ history, turn.Reports conn .complete) →
      (∀ turn ∈ history, turn.refusal? conn = none) ∧
      ∃ walked, registry.find? conn = some walked ∧ walked.progress = .complete ∧
        walked.services = record conn history) := by
  obtain ⟨begun, hbegun, empty⟩ := first.walk_accepted starts accepted
  obtain ⟨walked, hwalked, recorded⟩ := run.recorded hbegun left empty
  obtain ⟨walked', hwalked', completed⟩ := run.completed hbegun left
  obtain rfl : walked' = walked := Option.some.inj (hwalked'.symm.trans hwalked)
  refine ⟨recorded.breaks, fun reported => ?_⟩
  have hcomplete := completed reported
  obtain ⟨hfits, hservices⟩ := recorded.whole (by simp [hcomplete])
  exact ⟨hfits, walked', hwalked, hcomplete, hservices⟩

/-- The database of the second peer is the record of its walk.  Had it declared its command
characteristic outside of its services, the walk would have ended there. -/
theorem records_company :
    let first := Turn.against Script.reply {} company (.discoverAll 5)
    let history := playback first.after (findings.map fun event => (.event event, {}))
    let stray := Finding.characteristic ⟨Uuid.command, 30, 31, ⟨Properties.write⟩⟩
    let history' := playback first.after
      ((findings.take 5 ++ [Event.discovery 5 stray]).map fun event => (.event event, {}))
    ((∃ turn ∈ history, turn.Reports 5 .complete) ∧ ∃ walked : Peer,
      walked.services = record 5 history ∧
        (record 5 history).map (·.characteristics.map (·.descriptors.length)) = [[], [0, 1]]) ∧
    ∃ turn ∈ history', turn.Breaks 5 (.handleOutOfRange 30) := by
  intro first history stray history'
  have run : Run first.after history _ := run_playback first.after _
  have run' : Run first.after history' _ := run_playback first.after _
  have reported : ∃ turn ∈ history, turn.Reports 5 .complete := by decide
  obtain ⟨-, hcomplete⟩ := Run.records rfl rfl run (by decide)
  obtain ⟨-, walked, -, -, hservices⟩ := hcomplete reported
  have refused : ∃ turn ∈ history', turn.refusal? 5 = some (.handleOutOfRange 30) := by decide
  obtain ⟨turn, hturn, hrefused⟩ := refused
  obtain ⟨hbreaks, -⟩ := Run.records rfl rfl run' (by decide)
  exact ⟨⟨reported, walked, hservices, by decide⟩, turn, hturn, hbreaks turn hturn _ hrefused⟩

end Registry

end CameraCentral
