import CameraCentral.Panel
import CameraCentral.Proofs.Link.Traffic
import Mathlib.Logic.Basic

/-!
# What the shutter button writes

The panel remembers whether the last press of the shutter button started a recording.  It sees the
link only when a button is pressed, and then only the snapshot that was published last, so it takes
no notice when a camera is lost.  It finds out if the shutter button is pressed while no camera
takes commands, and then it starts from the beginning.  If nobody presses the button until the next
camera is ready, the panel goes on where it was with the camera that is gone.

`Run.recording_iff` reads the memory of the panel off the presses, and `Run.first_write_after_loss`
says which command the next camera gets first.  `recording_survives_loss` is a run in which that is
the command that ends a recording.
-/

namespace CameraCentral

/-- The link and the panel side by side, with the snapshot of the link that was published last. -/
structure Central where
  link : Link
  panel : Panel := {}
  published : Snapshot := {}

/-- What can happen to the two: the link has a turn, or a button of the panel is pressed and there
is something to do, or not. -/
inductive Moment where
  | turn (turn : Link.Turn)
  | press (button : Button) (command : Option Command)

namespace Moment

/-- The shutter button is pressed. -/
def IsShutter : Moment → Prop
  | press .shutter _ => True
  | press .scan _ | turn _ => False

/-- The shutter button is pressed, and these bytes are to be written. -/
def Writes (payload : Bytes) : Moment → Prop
  | press .shutter command => command = some (.write payload)
  | press .scan _ | turn _ => False

/-- The camera loses its connection. -/
def LosesCamera : Moment → Prop
  | turn t => t.before.camera.IsConnected ∧ ¬ t.after.camera.IsConnected
  | press _ _ => False

instance : DecidablePred LosesCamera
  | turn _ => inferInstanceAs (Decidable (_ ∧ _))
  | press _ _ => .isFalse id

/-- A shutter button that writes something is pressed. -/
theorem Writes.isShutter {moment : Moment} {payload : Bytes} (writes : moment.Writes payload) :
    moment.IsShutter := by
  cases moment with
  | turn t => exact writes
  | press button command =>
    cases button with
    | shutter => trivial
    | scan => exact writes

end Moment

namespace Central

/-- A link that has done nothing yet, a panel on which no button was pressed, and nothing published
yet. -/
def new (scanner : Scanner) : Central := { link := .new scanner }

/-- The link has a turn, and publishes what came of it. -/
def turned (central : Central) (turn : Link.Turn) : Central :=
  { central with link := turn.after, published := turn.after.snapshot }

/-- A button is pressed; the panel goes by what was published last. -/
def pressed (central : Central) (button : Button) : Central :=
  { central with panel := (central.panel.press button central.published).1 }

/-- What there is to do when a button is pressed. -/
def command? (central : Central) (button : Button) : Option Command :=
  (central.panel.press button central.published).2

/-- The runs of the link and the panel, each with its history.  Turns of the link and presses of
buttons come in any order. -/
inductive Run (start : Central) : List Moment → Central → Prop where
  | nil : Run start [] start
  | turn {history : List Moment} {central : Central} (run : Run start history central)
      (turn : Link.Turn) (next : turn.before = central.link) :
    Run start (history ++ [.turn turn]) (central.turned turn)
  | press {history : List Moment} {central : Central} (run : Run start history central)
      (button : Button) :
    Run start (history ++ [.press button (central.command? button)]) (central.pressed button)

variable {scanner : Scanner} {history earlier middle : List Moment} {central : Central}
  {payload : Bytes} {lost : Moment}

/-! ## The memory of the panel -/

/-- The last press of the shutter button started a recording. -/
def Recording (history : List Moment) : Prop :=
  Since (fun moment => ¬ moment.IsShutter) (Moment.Writes Camera.shutterOn) history

/-- The shutter button writes the one command or the other. -/
theorem shutter_cases (panel : Panel) :
    panel.shutter = Camera.shutterOn ∧ ¬ panel.recording ∨
      panel.shutter = Camera.shutterOff ∧ panel.recording := by
  unfold Panel.shutter
  by_cases h : panel.recording
  · exact .inr ⟨if_pos h, h⟩
  · exact .inl ⟨if_neg h, h⟩

/-- What the shutter button writes is what the panel remembers to write. -/
theorem eq_shutter_of_writes (h : central.command? .shutter = some (.write payload)) :
    payload = central.panel.shutter := by
  unfold command? Panel.press at h
  simp only at h
  split at h
  · cases h
    rfl
  · cases h

/-- After a press of the shutter button the panel remembers whether it started a recording. -/
theorem recording_pressed (central : Central) :
    (central.pressed .shutter).panel.recording ↔
      central.command? .shutter = some (.write Camera.shutterOn) := by
  unfold pressed command? Panel.press
  by_cases ready : central.published.camera.IsReady
  · simp only [if_pos ready, Option.some.injEq, Command.write.injEq]
    rcases shutter_cases central.panel with ⟨hwrites, h⟩ | ⟨hwrites, h⟩
    · rw [hwrites]
      simp [h]
    · rw [hwrites]
      simp [h, Camera.shutterOn, Camera.shutterOff]
  · simp [if_neg ready]

/-- **The panel remembers whether the last press of the shutter button started a recording**, and
nothing else. -/
theorem Run.recording_iff (run : Run (new scanner) history central) :
    central.panel.recording ↔ Recording history := by
  unfold Recording
  induction run with
  | nil =>
    constructor
    · intro h
      cases h
    · intro h
      exact absurd h (not_since_nil _ _)
  | turn run turn next ih =>
    rw [since_concat_iff, ← ih]
    simp [turned, Moment.Writes, Moment.IsShutter]
  | press run button ih =>
    rw [since_concat_iff, ← ih]
    cases button with
    | shutter =>
      rw [recording_pressed]
      simp [Moment.Writes, Moment.IsShutter]
    | scan => simp [pressed, Panel.press, Moment.Writes, Moment.IsShutter]

/-! ## The first command after a loss -/

/-- The last press of a run goes by what was before. -/
theorem Run.of_press {start : Central} {button : Button} {command : Option Command}
    (run : Run start (history ++ [.press button command]) central) :
    ∃ before, Run start history before ∧ command = before.command? button := by
  generalize hwhole : history ++ [Moment.press button command] = whole at run
  cases run with
  | nil => simp at hwhole
  | turn run turn next =>
    obtain ⟨-, hmoment⟩ := List.append_inj' hwhole rfl
    simp at hmoment
  | @press history' before run button' =>
    obtain ⟨rfl, hmoment⟩ := List.append_inj' hwhole rfl
    obtain ⟨rfl, rfl⟩ : button = button' ∧ command = before.command? button' := by
      simpa using hmoment
    exact ⟨before, run, rfl⟩

/-- **What a new camera gets first.**  After the camera lost its connection, the first command that
the shutter button writes starts a recording exactly if the button was pressed in the meantime, to
no effect, or the last press before the loss had not started a recording.  Otherwise it ends a
recording. -/
theorem Run.first_write_after_loss
    (run : Run (new scanner)
      (earlier ++ lost :: middle ++ [.press .shutter (some (.write payload))]) central)
    (loses : lost.LosesCamera) (first : ∀ moment ∈ middle, ∀ bytes, ¬ moment.Writes bytes) :
    (payload = Camera.shutterOn ↔
      (∃ moment ∈ middle, moment.IsShutter) ∨ ¬ Recording earlier) ∧
        (payload ≠ Camera.shutterOn → payload = Camera.shutterOff) := by
  obtain ⟨before, hrun, hcommand⟩ := run.of_press
  obtain rfl := eq_shutter_of_writes hcommand.symm
  have hlost : ¬ lost.IsShutter := by
    cases lost with
    | turn turn => exact id
    | press button command => exact loses.elim
  have hquiet : ∀ moment ∈ lost :: middle, ¬ moment.Writes Camera.shutterOn := by
    rintro moment (_ | ⟨_, hmoment⟩) hwrites
    · exact hlost hwrites.isShutter
    · exact first moment hmoment _ hwrites
  have hrecording : before.panel.recording ↔
      (∀ moment ∈ middle, ¬ moment.IsShutter) ∧ Recording earlier := by
    rw [hrun.recording_iff, Recording, since_append_iff_of_not_start hquiet, List.forall_mem_cons,
      and_iff_right hlost]
    exact Iff.rfl
  have hidle : (∃ moment ∈ middle, moment.IsShutter) ∨ ¬ Recording earlier ↔
      ¬ before.panel.recording := by
    rw [hrecording, not_and_or, not_forall₂]
    simp only [not_not, exists_prop]
  rw [hidle]
  rcases shutter_cases before.panel with ⟨hwrites, h⟩ | ⟨hwrites, h⟩
  · exact ⟨iff_of_true hwrites h, fun hne => absurd hwrites hne⟩
  · have hne : before.panel.shutter ≠ Camera.shutterOn := by
      rw [hwrites]
      decide
    exact ⟨iff_of_false hne (not_not_intro h), fun _ => hwrites⟩

/-! ### A second visit -/

/-- A run goes on with a run from where it ended. -/
theorem Run.append {start central' : Central} {history' : List Moment}
    (run : Run start history central) (run' : Run central history' central') :
    Run start (history ++ history') central' := by
  induction run' with
  | nil => rwa [List.append_nil]
  | turn _ turn next ih =>
    rw [← List.append_assoc]
    exact ih.turn turn next
  | press _ button ih =>
    rw [← List.append_assoc]
    exact ih.press button

/-- What happens when calls of the link, against a host that accepts everything, and presses of
buttons follow each other. -/
def playback (central : Central) : List (Link.Call ⊕ Button) → List Moment
  | [] => []
  | .inl call :: rest =>
    .turn (.against Script.reply {} central.link call) ::
      playback (central.turned (.against Script.reply {} central.link call)) rest
  | .inr button :: rest =>
    .press button (central.command? button) :: playback (central.pressed button) rest

/-- The link and the panel after it. -/
def after (central : Central) : List (Link.Call ⊕ Button) → Central
  | [] => central
  | .inl call :: rest => after (central.turned (.against Script.reply {} central.link call)) rest
  | .inr button :: rest => after (central.pressed button) rest

/-- Calls and presses that follow each other make a run. -/
theorem run_playback (central : Central) (acts : List (Link.Call ⊕ Button)) :
    Run central (playback central acts) (after central acts) := by
  induction acts generalizing central with
  | nil => exact .nil
  | cons act acts ih =>
    cases act with
    | inl call =>
      exact (Run.nil.turn (.against Script.reply {} central.link call) rfl).append (ih _)
    | inr button => exact (Run.nil.press button).append (ih _)

/-- Calls of the link press no button. -/
theorem not_writes_of_calls (central : Central) (calls : List Link.Call) :
    ∀ moment ∈ playback central (calls.map .inl), ∀ bytes, ¬ moment.Writes bytes := by
  induction calls generalizing central with
  | nil => simp [playback]
  | cons call calls ih =>
    rintro moment (_ | ⟨_, hmoment⟩) bytes
    · exact id
    · exact ih _ moment hmoment bytes

/-- A camera comes up, is encrypted and walked. -/
def visit : List Link.Call := Link.visit.map (·.1)

/-- A camera is visited, and a recording is started. -/
def recordingVisit : List (Link.Call ⊕ Button) :=
  visit.map .inl ++ [.inr .shutter, .inl (.perform (.write Camera.shutterOn))]

/-- If the shutter button is pressed while the camera is away, the recording is forgotten, and the
camera gets the command that starts one when it is back. -/
theorem first_write_after_noticed_loss :
    let begun := after (new {}) recordingVisit
    let lost := Link.Turn.against Script.reply {} begun.link (.event (.disconnect 5 ⟨8⟩))
    let noticed := (begun.turned lost).pressed .shutter
    let back := after noticed (visit.map .inl)
    ∃ middle payload, Run (new {}) (playback (new {}) recordingVisit ++ .turn lost :: middle ++
        [.press .shutter (some (.write payload))]) (back.pressed .shutter) ∧
      (∀ moment ∈ middle, ∀ bytes, ¬ moment.Writes bytes) ∧ payload = Camera.shutterOn := by
  intro begun lost noticed back
  have hnone : (begun.turned lost).command? .shutter = none := by decide
  have hcommand : back.command? .shutter = some (.write Camera.shutterOn) := by decide
  have run : Run (new {}) (playback (new {}) recordingVisit ++
      .turn lost :: .press .shutter none :: playback noticed (visit.map .inl) ++
        [.press .shutter (some (.write Camera.shutterOn))]) (back.pressed .shutter) := by
    have first := ((run_playback (new {}) recordingVisit).turn lost rfl).press .shutter
    have last := (first.append (run_playback noticed (visit.map .inl))).press .shutter
    rw [hnone, hcommand] at last
    simpa only [List.append_assoc, List.cons_append, List.nil_append] using last
  have hquiet : ∀ moment ∈ .press .shutter none :: playback noticed (visit.map .inl),
      ∀ bytes, ¬ moment.Writes bytes := by
    rintro moment (_ | ⟨_, hmoment⟩) bytes
    · simp [Moment.Writes]
    · exact not_writes_of_calls noticed visit moment hmoment bytes
  obtain ⟨hstarts, -⟩ := Run.first_write_after_loss run (by decide) hquiet
  exact ⟨_, Camera.shutterOn, run, hquiet, hstarts.2 (.inl ⟨_, List.mem_cons_self, trivial⟩)⟩

/-- **A recording survives the loss of the camera.**  If nobody presses the shutter button while the
camera is away, it gets the command that ends a recording when it is back. -/
theorem recording_survives_loss :
    let begun := after (new {}) recordingVisit
    let lost := Link.Turn.against Script.reply {} begun.link (.event (.disconnect 5 ⟨8⟩))
    let middle := playback (begun.turned lost) (visit.map .inl)
    let back := after (begun.turned lost) (visit.map .inl)
    Run (new {}) (playback (new {}) recordingVisit ++ .turn lost :: middle ++
        [.press .shutter (some (.write Camera.shutterOff))]) (back.pressed .shutter) ∧
      (Moment.turn lost).LosesCamera ∧ (∀ moment ∈ middle, ∀ bytes, ¬ moment.Writes bytes) ∧
        back.published.camera.IsReady ∧ Camera.shutterOff ≠ Camera.shutterOn := by
  intro begun lost middle back
  have hcommand : back.command? .shutter = some (.write Camera.shutterOff) := by decide
  have first := (run_playback (new {}) recordingVisit).turn lost rfl
  have last := (first.append (run_playback (begun.turned lost) (visit.map .inl))).press .shutter
  rw [hcommand] at last
  have run : Run (new {}) (playback (new {}) recordingVisit ++ .turn lost :: middle ++
      [.press .shutter (some (.write Camera.shutterOff))]) (back.pressed .shutter) := by
    simpa only [List.append_assoc, List.cons_append, List.nil_append] using last
  exact ⟨run, by decide, not_writes_of_calls (begun.turned lost) visit, by decide, by decide⟩

end Central

end CameraCentral
