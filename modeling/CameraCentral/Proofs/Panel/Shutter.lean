import CameraCentral.Panel
import Mathlib.Algebra.Ring.Parity
import Mathlib.Data.List.DropRight

/-!
# The shutter button in turn

With every press of a button the panel is shown a snapshot, and nothing is known of these snapshots.
They may be old, they may be of different links, and a camera may be there in one and gone in the
next.  What the panel makes of them is a matter of counting.  The shutter button *triggers* if it is
pressed and there is a camera in the snapshot that takes commands, and it *misses* if it is pressed
and there is none.  The panel forgets everything when the button misses, and the scan button does
not concern it, so all that counts is how often the shutter button triggered since it last missed
(`Panel.shots`).

The command that comes of a press is for a link to carry out, and by then the link need not be what
the snapshot said.  `Panel.shutter_in_turn` says which command it is, and what a link makes of it.
-/

namespace CameraCentral

namespace Panel

/-- A press of a button, and the snapshot that the panel is shown with it. -/
structure Press where
  button : Button
  seen : Snapshot

namespace Press

/-- The shutter button is pressed, and a camera is seen that takes commands. -/
def Triggers (press : Press) : Prop := press.button = .shutter ∧ press.seen.camera.IsReady

/-- The shutter button is pressed, and no camera is seen that takes commands. -/
def Misses (press : Press) : Prop := press.button = .shutter ∧ ¬ press.seen.camera.IsReady

instance : DecidablePred Triggers := fun _ => inferInstanceAs (Decidable (_ ∧ _))

instance : DecidablePred Misses := fun _ => inferInstanceAs (Decidable (_ ∧ _))

end Press

/-- A new panel after presses of its buttons. -/
def after (presses : List Press) : Panel :=
  presses.foldl (fun panel press => (panel.press press.button press.seen).1) {}

/-- What there is to do when a button of a new panel is pressed after others. -/
def command? (earlier : List Press) (press : Press) : Option Command :=
  ((after earlier).press press.button press.seen).2

/-- How often the shutter button triggered since it last missed, or from the beginning if it never
missed. -/
def shots (presses : List Press) : Nat :=
  (presses.rtakeWhile fun press => ¬ press.Misses).countP fun press => press.Triggers

/-- The command that is due after presses: one that starts a recording and one that ends it take
turns. -/
def due (presses : List Press) : Bytes :=
  if Even (shots presses) then Camera.shutterOn else Camera.shutterOff

variable {presses : List Press} {press : Press}

/-! ## One press -/

/-- A button that triggers makes a command, and the panel turns to the other one. -/
theorem press_of_triggers (panel : Panel) (triggers : press.Triggers) :
    panel.press press.button press.seen =
      ({ recording := !panel.recording }, some (.write panel.shutter)) := by
  obtain ⟨hbutton, ready⟩ := triggers
  rw [hbutton, Panel.press, if_pos ready]

/-- A button that misses makes no command, and the panel forgets what it knew. -/
theorem press_of_misses (panel : Panel) (misses : press.Misses) :
    panel.press press.button press.seen = ({}, none) := by
  obtain ⟨hbutton, unready⟩ := misses
  rw [hbutton, Panel.press, if_neg unready]

/-! ## The memory of the panel -/

theorem after_concat (presses : List Press) (press : Press) :
    after (presses ++ [press]) = ((after presses).press press.button press.seen).1 :=
  List.foldl_concat ..

/-- A button that triggers counts. -/
theorem shots_concat_of_triggers (triggers : press.Triggers) :
    shots (presses ++ [press]) = shots presses + 1 := by
  have hits : ¬ press.Misses := fun misses => misses.2 triggers.2
  simp [shots, hits, triggers]

/-- A button that misses ends the count. -/
theorem shots_concat_of_misses (misses : press.Misses) : shots (presses ++ [press]) = 0 := by
  simp [shots, misses]

/-- The scan button has no part in the count. -/
theorem shots_concat_of_scan (seen : Snapshot) :
    shots (presses ++ [⟨.scan, seen⟩]) = shots presses := by
  simp [shots, Press.Misses, Press.Triggers]

/-- The panel remembers whether the shutter button triggered an odd number of times since it last
missed. -/
theorem recording_after_iff (presses : List Press) :
    (after presses).recording ↔ Odd (shots presses) := by
  induction presses using List.reverseRecOn with
  | nil => decide
  | append_singleton presses last ih =>
    rw [after_concat]
    obtain ⟨button, seen⟩ := last
    cases button with
    | scan =>
      rw [shots_concat_of_scan]
      exact ih
    | shutter =>
      by_cases ready : seen.camera.IsReady
      · have triggers : Press.Triggers ⟨.shutter, seen⟩ := ⟨rfl, ready⟩
        rw [shots_concat_of_triggers triggers, press_of_triggers _ triggers, Nat.odd_add_one, ← ih]
        simp
      · have misses : Press.Misses ⟨.shutter, seen⟩ := ⟨rfl, ready⟩
        rw [shots_concat_of_misses misses, press_of_misses _ misses]
        simp

/-- What the shutter button would write is the command that is due. -/
theorem shutter_after (presses : List Press) : (after presses).shutter = due presses := by
  unfold shutter due
  by_cases odd : Odd (shots presses)
  · rw [if_pos ((recording_after_iff presses).2 odd), if_neg (Nat.not_even_iff_odd.2 odd)]
  · rw [if_neg (mt (recording_after_iff presses).1 odd), if_pos (Nat.not_odd_iff_even.1 odd)]

/-- A press of the shutter button makes the command that is due, if a camera is seen that takes
commands, and none if not. -/
theorem command?_shutter (presses : List Press) (seen : Snapshot) :
    command? presses ⟨.shutter, seen⟩ =
      if seen.camera.IsReady then some (.write (due presses)) else none := by
  rw [command?, ← shutter_after]
  by_cases ready : seen.camera.IsReady
  · have triggers : Press.Triggers ⟨.shutter, seen⟩ := ⟨rfl, ready⟩
    rw [press_of_triggers _ triggers, if_pos ready]
  · have misses : Press.Misses ⟨.shutter, seen⟩ := ⟨rfl, ready⟩
    rw [press_of_misses _ misses, if_neg ready]

end Panel

/-! ## What a link makes of a command -/

namespace Link

variable {σ : Type} {link : Link} {payload : Bytes}

/-- A link whose camera takes commands writes the command to it, and asks for nothing else. -/
theorem requests_write {conn : ConnHandle} {handle : AttHandle}
    (hconn : link.camera.conn = some conn) (hhandle : link.camera.commandHandle = some handle)
    (nonempty : payload ≠ []) (short : payload.length ≤ Settings.commandMaxLength)
    (reply : σ → Request → Answer × σ) (host : σ) :
    ((link.perform (.write payload)).run reply host).requests =
      [.writeNoResponse conn handle payload] := by
  have fits : ¬ Settings.commandMaxLength < payload.length := Nat.not_lt.2 short
  simp only [perform, writeCommand, Camera.writeCommand, hconn, hhandle, if_neg nonempty,
    if_neg fits]
  rfl

/-- A link without a camera that takes commands refuses the command, whatever it is, before the host
hears of it. -/
theorem requests_write_of_not_ready (unready : ¬ link.camera.IsReady)
    (reply : σ → Request → Answer × σ) (host : σ) :
    ((link.perform (.write payload)).run reply host).requests = [] := by
  cases hconn : link.camera.conn with
  | none =>
    simp only [perform, writeCommand, Camera.writeCommand, hconn]
    rfl
  | some conn =>
    have hhandle : link.camera.commandHandle = none := by
      simpa [Camera.IsReady, hconn] using unready
    simp only [perform, writeCommand, Camera.writeCommand, hconn, hhandle]
    rfl

end Link

namespace Panel

/-- What the shutter button writes is neither empty nor too long. -/
theorem due_fits (presses : List Press) :
    due presses ≠ [] ∧ (due presses).length ≤ Settings.commandMaxLength := by
  unfold due
  split <;> decide

/-- **Starting and ending a recording take turns.**  After any presses of its buttons, whatever was
seen with them, a new panel remembers whether the shutter button triggered an odd number of times
since it last missed.  If the shutter button is pressed then, there is a command exactly if a camera
is seen that takes commands, and the command starts a recording if that number is even and ends one
if it is odd.

A link that carries the command out may not be the one that was seen.  Whatever the host answers, it
writes exactly this command, to its own camera and nothing else, if it has a camera that takes
commands, and asks for nothing if it has none. -/
theorem shutter_in_turn (presses : List Press) (seen : Snapshot) :
    ((after presses).recording ↔ Odd (shots presses)) ∧
    ((command? presses ⟨.shutter, seen⟩).isSome ↔ seen.camera.IsReady) ∧
    ∀ command ∈ command? presses ⟨.shutter, seen⟩,
      command = .write (due presses) ∧
      ∀ (link : Link) (σ : Type) (reply : σ → Request → Answer × σ) (host : σ),
        (∀ conn handle, link.camera.conn = some conn → link.camera.commandHandle = some handle →
          ((link.perform command).run reply host).requests =
            [.writeNoResponse conn handle (due presses)]) ∧
        (¬ link.camera.IsReady → ((link.perform command).run reply host).requests = []) := by
  refine ⟨recording_after_iff presses, ?_, fun command hcommand => ?_⟩
  · rw [command?_shutter]
    by_cases ready : seen.camera.IsReady <;> simp [ready]
  · obtain ⟨-, rfl⟩ : seen.camera.IsReady ∧ .write (due presses) = command := by
      simpa [command?_shutter] using hcommand
    obtain ⟨nonempty, short⟩ := due_fits presses
    refine ⟨rfl, fun link σ reply host => ⟨fun conn handle hconn hhandle => ?_, fun unready => ?_⟩⟩
    · exact Link.requests_write hconn hhandle nonempty short reply host
    · exact Link.requests_write_of_not_ready unready reply host

/-- A press of the scan button between two presses of the shutter button changes nothing. -/
example :
    let ready : Snapshot := { camera := { conn := some 1, commandHandle := some 0x2A } }
    command? [⟨.shutter, ready⟩, ⟨.scan, {}⟩] ⟨.shutter, ready⟩ =
      some (.write Camera.shutterOff) := by
  decide

end Panel

end CameraCentral
