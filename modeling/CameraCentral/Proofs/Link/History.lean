import CameraCentral.Host.Script
import CameraCentral.Proofs.History
import CameraCentral.Proofs.Link.Turn

/-!
# Histories of the link

A run of the link is a sequence of turns, each of which begins where the one before it ended.  The
turns of a run, in order, are its *history*.
-/

namespace CameraCentral

namespace Link

/-! ## Runs -/

/-- A link that has done nothing yet, with the scanner that it was given. -/
def new (scanner : Scanner) : Link := { scanner }

/-- The runs of the link from a start, each with its history and the link that it ends with. -/
inductive Run (start : Link) : List Turn → Link → Prop where
  | nil : Run start [] start
  | concat {history : List Turn} {link : Link} (run : Run start history link) (turn : Turn)
      (next : turn.before = link) : Run start (history ++ [turn]) turn.after

/-- A run goes on with a run from where it ended. -/
theorem Run.append {start link link' : Link} {history history' : List Turn}
    (run : Run start history link) (run' : Run link history' link') :
    Run start (history ++ history') link' := by
  induction run' with
  | nil => rwa [List.append_nil]
  | concat _ turn next ih =>
    rw [← List.append_assoc]
    exact ih.concat turn next

/-- The last turn of a run begins where the rest of the run ended. -/
theorem run_concat_iff {start link : Link} {history : List Turn} {turn : Turn} :
    Run start (history ++ [turn]) link ↔ Run start history turn.before ∧ link = turn.after := by
  constructor
  · intro run
    generalize hwhole : history ++ [turn] = whole at run
    cases run with
    | nil => simp at hwhole
    | @concat history' _ run turn' next =>
      obtain ⟨rfl, hturn⟩ := List.append_inj' hwhole rfl
      obtain rfl : turn = turn' := by simpa using hturn
      exact ⟨next ▸ run, rfl⟩
  · rintro ⟨run, rfl⟩
    exact run.concat turn rfl

/-- What holds of a new history, and of every turn that follows on one of which it holds, holds of
every run. -/
theorem Run.invariant {start link : Link} {history : List Turn}
    (run : Run start history link) (inv : List Turn → Link → Prop) (initially : inv [] start)
    (preserved : ∀ (history : List Turn) (turn : Turn), inv history turn.before →
      inv (history ++ [turn]) turn.after) : inv history link := by
  induction run with
  | nil => exact initially
  | concat _ turn next ih => exact preserved _ turn (next ▸ ih)

/-- A run goes through a link if there is a run to it, and a run from it. -/
theorem run_append_iff {start link : Link} {history later : List Turn} :
    Run start (history ++ later) link ↔
      ∃ middle, Run start history middle ∧ Run middle later link := by
  constructor
  · intro run
    generalize hwhole : history ++ later = whole at run
    induction run generalizing later with
    | nil =>
      obtain ⟨rfl, rfl⟩ := List.append_eq_nil_iff.1 hwhole
      exact ⟨start, .nil, .nil⟩
    | concat run turn next ih =>
      rcases List.eq_nil_or_concat later with rfl | ⟨later, last, rfl⟩
      · rw [List.append_nil] at hwhole
        exact ⟨turn.after, hwhole ▸ run.concat turn next, .nil⟩
      · rw [List.concat_eq_append, ← List.append_assoc] at hwhole
        obtain ⟨hbefore, hlast⟩ := List.append_inj' hwhole rfl
        obtain rfl : last = turn := by simpa using hlast
        obtain ⟨middle, hfirst, hsecond⟩ := ih hbefore
        rw [List.concat_eq_append]
        exact ⟨middle, hfirst, hsecond.concat last next⟩
  · rintro ⟨middle, run, run'⟩
    exact run.append run'

/-- A run without turns goes nowhere. -/
theorem run_nil_iff {start link : Link} : Run start [] link ↔ link = start := by
  constructor
  · intro run
    generalize hnil : ([] : List Turn) = history at run
    cases run with
    | nil => rfl
    | concat run turn next => simp at hnil
  · rintro rfl
    exact .nil

/-- The first turn of a run begins where the run began, and the rest of the run where it ended. -/
theorem run_cons_iff {start link : Link} {history : List Turn} {turn : Turn} :
    Run start (turn :: history) link ↔ turn.before = start ∧ Run turn.after history link := by
  have hfirst : ∀ {middle : Link}, Run start [turn] middle ↔
      turn.before = start ∧ middle = turn.after := by
    intro middle
    rw [← List.nil_append [turn], run_concat_iff, run_nil_iff]
  rw [← List.singleton_append, run_append_iff]
  constructor
  · rintro ⟨middle, hturn, run⟩
    obtain ⟨hbefore, rfl⟩ := hfirst.1 hturn
    exact ⟨hbefore, run⟩
  · rintro ⟨hbefore, run⟩
    exact ⟨turn.after, hfirst.2 ⟨hbefore, rfl⟩, run⟩

/-- What holds at the start of a run, and after each of its turns if it held before, holds all the
way. -/
theorem Run.forward {start link : Link} {history : List Turn} (run : Run start history link)
    {p : Link → Prop} (initially : p start)
    (preserved : ∀ turn ∈ history, p turn.before → p turn.after) :
    (∀ turn ∈ history, p turn.before) ∧ p link := by
  induction run with
  | nil => exact ⟨by simp, initially⟩
  | concat run last next ih =>
    obtain ⟨hbefore, hlast⟩ := ih fun turn hturn => preserved turn (List.mem_append_left _ hturn)
    have hstart : p last.before := next ▸ hlast
    refine ⟨fun turn hturn => ?_, preserved last (by simp) hstart⟩
    rcases List.mem_append.1 hturn with hturn | hturn
    · exact hbefore turn hturn
    · exact List.mem_singleton.1 hturn ▸ hstart

/-- What holds at the end of a run, and before each of its turns if it holds after, has held all the
way. -/
theorem Run.backward {start link : Link} {history : List Turn} (run : Run start history link)
    {p : Link → Prop} (ultimately : p link)
    (preserved : ∀ turn ∈ history, p turn.after → p turn.before) :
    (∀ turn ∈ history, p turn.after) ∧ p start := by
  induction run with
  | nil => exact ⟨by simp, ultimately⟩
  | concat run last next ih =>
    have hlast : p last.before := preserved last (by simp) ultimately
    obtain ⟨hafter, hstart⟩ := ih (next ▸ hlast) fun turn hturn =>
      preserved turn (List.mem_append_left _ hturn)
    refine ⟨fun turn hturn => ?_, hstart⟩
    rcases List.mem_append.1 hturn with hturn | hturn
    · exact hafter turn hturn
    · exact List.mem_singleton.1 hturn ▸ ultimately

/-! ### Runs against scripted hosts -/

/-- The history of a list of calls, each carried out against a scripted host. -/
def playback (link : Link) : List (Call × Script) → List Turn
  | [] => []
  | (call, script) :: calls =>
    Turn.against Script.reply script link call ::
      playback (Turn.against Script.reply script link call).after calls

/-- The link after a list of calls, each carried out against a scripted host. -/
def after (link : Link) : List (Call × Script) → Link
  | [] => link
  | (call, script) :: calls => after (Turn.against Script.reply script link call).after calls

/-- The address of the camera in sample runs. -/
def sampleAddress : Address := ⟨.publicDevice, #v[1, 2, 3, 4, 5, 6]⟩

/-- Scripted hosts make runs. -/
theorem run_playback (link : Link) (calls : List (Call × Script)) :
    Run link (playback link calls) (after link calls) := by
  induction calls generalizing link with
  | nil => exact .nil
  | cons entry calls ih =>
    obtain ⟨call, script⟩ := entry
    have hfirst : Run link [Turn.against Script.reply script link call]
        (Turn.against Script.reply script link call).after :=
      Run.concat .nil _ rfl
    exact hfirst.append (ih _)

end Link

/-! ## What happens to a connection -/

/-- The connection that is up according to an event. -/
def Event.established? : Event → Option ConnHandle
  | linkEstablished conn _ status => if status.IsSuccess then some conn else none
  | _ => none

/-- The connection that is encrypted according to an event. -/
def Event.encrypted? : Event → Option ConnHandle
  | encryptionChange conn status => if status.IsSuccess then some conn else none
  | _ => none

/-- The connection that is down according to an event. -/
def Event.disconnected? : Event → Option ConnHandle
  | disconnect conn _ => some conn
  | _ => none

namespace Link

/-- The event that a call reports, if it reports one. -/
def Call.event? : Call → Option Event
  | event e => some e
  | _ => none

@[simp] theorem Call.event?_direct (call : Call) : call.direct.event? = call.event? := by
  cases call with
  | perform command => cases command <;> rfl
  | event _ | startScan | stopScan | write _ => rfl

/-- A connection is reported to be up by the success of a connection attempt. -/
theorem Call.established_of_success {status : Status} (success : status.IsSuccess)
    (conn : ConnHandle) (address : Address) :
    (event (.linkEstablished conn address status)).event?.bind Event.established? = some conn := by
  simp [event?, Event.established?, success]

/-- A connection is reported to be encrypted by a change of encryption that succeeded. -/
theorem Call.encrypted_of_success {status : Status} (success : status.IsSuccess)
    (conn : ConnHandle) :
    (event (.encryptionChange conn status)).event?.bind Event.encrypted? = some conn := by
  simp [event?, Event.encrypted?, success]

namespace Turn

/-- In this turn a connection is reported to be up. -/
def Establishes (conn : ConnHandle) (turn : Turn) : Prop :=
  turn.call.event?.bind Event.established? = some conn

/-- In this turn a connection is reported to be encrypted. -/
def Encrypts (conn : ConnHandle) (turn : Turn) : Prop :=
  turn.call.event?.bind Event.encrypted? = some conn

/-- In this turn a connection is reported to be down. -/
def Disconnects (conn : ConnHandle) (turn : Turn) : Prop :=
  turn.call.event?.bind Event.disconnected? = some conn

instance (conn : ConnHandle) : DecidablePred (Establishes conn) :=
  fun turn => inferInstanceAs (Decidable (turn.call.event?.bind Event.established? = some conn))

instance (conn : ConnHandle) : DecidablePred (Encrypts conn) :=
  fun turn => inferInstanceAs (Decidable (turn.call.event?.bind Event.encrypted? = some conn))

instance (conn : ConnHandle) : DecidablePred (Disconnects conn) :=
  fun turn => inferInstanceAs (Decidable (turn.call.event?.bind Event.disconnected? = some conn))

/-- In this turn a connection is added to the registry: it is reported to be up, and the registry
takes it. -/
def Adds (conn : ConnHandle) (turn : Turn) : Prop :=
  turn.Establishes conn ∧ turn.before.peers.find? conn = none ∧
    turn.before.peers.peers.length < Settings.maxPeers

end Turn

end Link

end CameraCentral
