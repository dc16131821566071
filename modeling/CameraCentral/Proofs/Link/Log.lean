import CameraCentral.Proofs.Link.History

/-!
# Logs

The log of a run is the one sequence of everything that went to and fro between the host and the
link: what the host reported, and what the link asked for, with the answer.  Within a turn the
report comes first and the requests follow in the order in which they were made.

The log counts connection attempts.  An attempt is under way (`Pending`) while the host has taken on
more of them than it has reported the outcome of.
-/

namespace CameraCentral

/-- The outcome of a connection attempt is reported. -/
def Event.IsOutcome : Event → Prop
  | linkEstablished _ _ _ => True
  | _ => False

instance : DecidablePred Event.IsOutcome
  | .linkEstablished _ _ _ => .isTrue trivial
  | .advertisement _ | .scanComplete _ | .encryptionChange _ _ | .disconnect _ _ => .isFalse id
  | .repeatPairing _ | .mtuChanged _ _ | .discovery _ _ | .writeComplete _ _ _ => .isFalse id
  | .notification _ _ _ _ | .scanRestartDue => .isFalse id

/-- Every event but the outcome of a connection attempt and the end of a connection. -/
def Event.IsPlain : Event → Prop
  | linkEstablished _ _ _ | disconnect _ _ => False
  | _ => True

theorem Event.IsPlain.not_isOutcome {event : Event} (h : event.IsPlain) : ¬ event.IsOutcome := by
  cases event <;> first | exact id | exact h.elim

theorem Event.IsPlain.disconnected?_eq_none {event : Event} (h : event.IsPlain) :
    event.disconnected? = none := by
  cases event <;> first | rfl | exact h.elim

/-- The requests for which the radio has to be free: to scan, and to connect. -/
def Request.NeedsRadio (request : Request) : Prop :=
  request.kind = .startScan ∨ request.kind = .connect

instance (request : Request) : Decidable request.NeedsRadio :=
  inferInstanceAs (Decidable (_ ∨ _))

/-- The host takes on to connect to a device. -/
def Exchange.Connects (x : Exchange) : Prop :=
  x.request.kind = .connect ∧ x.answer = .accepted

instance (x : Exchange) : Decidable x.Connects :=
  inferInstanceAs (Decidable (_ ∧ _))

namespace Link

/-! ## The log of a run -/

/-- What can stand in a log. -/
inductive Entry where
  /-- The host reported an event. -/
  | told (event : Event)
  /-- The link made a request, and the host answered. -/
  | asked (exchange : Exchange)
deriving DecidableEq, Repr

namespace Entry

/-- The host took on to connect to a device. -/
def Connects : Entry → Prop
  | told _ => False
  | asked x => x.Connects

/-- The host reported the outcome of a connection attempt. -/
def Answers : Entry → Prop
  | told event => event.IsOutcome
  | asked _ => False

/-- The link made a request for which the radio has to be free. -/
def NeedsRadio : Entry → Prop
  | told _ => False
  | asked x => x.request.NeedsRadio

/-- The connection that the host reported to be up. -/
def established? : Entry → Option ConnHandle
  | told event => event.established?
  | asked _ => none

/-- The connection that the host reported to be down. -/
def disconnected? : Entry → Option ConnHandle
  | told event => event.disconnected?
  | asked _ => none

instance : DecidablePred Connects
  | told _ => .isFalse id
  | asked x => inferInstanceAs (Decidable x.Connects)

instance : DecidablePred Answers
  | told event => inferInstanceAs (Decidable event.IsOutcome)
  | asked _ => .isFalse id

instance : DecidablePred NeedsRadio
  | told _ => .isFalse id
  | asked x => inferInstanceAs (Decidable x.request.NeedsRadio)

end Entry

/-- What a turn adds to the log. -/
def Turn.log (turn : Turn) : List Entry :=
  (turn.call.event?.map .told).toList ++ turn.exchanges.map .asked

/-- The log of a history. -/
def log (history : List Turn) : List Entry := history.flatMap Turn.log

@[simp] theorem log_concat (history : List Turn) (turn : Turn) :
    log (history ++ [turn]) = log history ++ turn.log := by
  simp [log]

/-! ## Connection attempts -/

/-- How many connection attempts the host took on. -/
def connects (entries : List Entry) : Nat := entries.countP fun entry => entry.Connects

/-- How many outcomes of connection attempts the host reported. -/
def answers (entries : List Entry) : Nat := entries.countP fun entry => entry.Answers

/-- A connection attempt is under way. -/
def Pending (entries : List Entry) : Prop := answers entries < connects entries

instance (entries : List Entry) : Decidable (Pending entries) :=
  inferInstanceAs (Decidable (_ < _))

/-- The host reports outcomes only of connection attempts that are under way, one for each. -/
def Answering (entries : List Entry) : Prop :=
  Throughout (fun past entry => entry.Answers → Pending past) entries

/-- A connection that is reported to be down was reported to be up, and not to be down since. -/
def Entry.Disconnects (past : List Entry) (entry : Entry) : Prop :=
  ∀ conn ∈ entry.disconnected?,
    Since (fun e => e.disconnected? ≠ some conn) (fun e => e.established? = some conn) past

/-- The host reports a connection to be down only while it is up. -/
def Disconnecting (entries : List Entry) : Prop := Throughout Entry.Disconnects entries

/-- Scanning and connecting do not overlap: nothing is asked of the radio while a connection attempt
is under way. -/
def Exclusive (entries : List Entry) : Prop :=
  Throughout (fun past entry => entry.NeedsRadio → ¬ Pending past) entries

/-- No connection is reported to be down while a connection attempt is under way. -/
def Calm (entries : List Entry) : Prop :=
  Throughout (fun past entry => entry.disconnected?.isSome → ¬ Pending past) entries

/-- No connection was reported to be down since the host last took on to connect. -/
def Undisturbed (entries : List Entry) : Prop :=
  Since (fun entry => ¬ entry.disconnected?.isSome) Entry.Connects entries

instance (entries : List Entry) : Decidable (Answering entries) :=
  inferInstanceAs (Decidable (Throughout _ entries))

instance (past : List Entry) (entry : Entry) : Decidable (entry.Disconnects past) :=
  Option.decidableForallMem _

instance (entries : List Entry) : Decidable (Disconnecting entries) :=
  inferInstanceAs (Decidable (Throughout _ entries))

instance (entries : List Entry) : Decidable (Exclusive entries) :=
  inferInstanceAs (Decidable (Throughout _ entries))

instance (entries : List Entry) : Decidable (Calm entries) :=
  inferInstanceAs (Decidable (Throughout _ entries))

instance (entries : List Entry) : Decidable (Undisturbed entries) :=
  inferInstanceAs (Decidable (Since _ _ entries))

theorem connects_append (entries entries' : List Entry) :
    connects (entries ++ entries') = connects entries + connects entries' := by
  simp [connects]

theorem answers_append (entries entries' : List Entry) :
    answers (entries ++ entries') = answers entries + answers entries' := by
  simp [answers]

/-- An entry that neither begins a connection attempt nor ends one, and ends no connection. -/
structure Entry.IsPlain (entry : Entry) : Prop where
  not_connects : ¬ entry.Connects
  not_answers : ¬ entry.Answers
  up : entry.disconnected? = none

/-- Plain entries begin no connection attempt. -/
theorem connects_eq_zero {entries : List Entry} (h : ∀ entry ∈ entries, entry.IsPlain) :
    connects entries = 0 :=
  List.countP_eq_zero.2 fun entry hentry => by simp [(h entry hentry).not_connects]

/-- Plain entries end no connection attempt. -/
theorem answers_eq_zero {entries : List Entry} (h : ∀ entry ∈ entries, entry.IsPlain) :
    answers entries = 0 :=
  List.countP_eq_zero.2 fun entry hentry => by simp [(h entry hentry).not_answers]

/-- Plain entries leave a connection attempt under way, or none. -/
theorem pending_append_iff {entries later : List Entry} (h : ∀ entry ∈ later, entry.IsPlain) :
    Pending (entries ++ later) ↔ Pending entries := by
  unfold Pending
  rw [connects_append, answers_append, connects_eq_zero h, answers_eq_zero h]
  exact Iff.rfl

/-- Plain entries disturb nothing. -/
theorem undisturbed_append_iff {entries later : List Entry} (h : ∀ entry ∈ later, entry.IsPlain) :
    Undisturbed (entries ++ later) ↔ Undisturbed entries :=
  since_append_iff fun entry hentry => by
    simp [(h entry hentry).not_connects, (h entry hentry).up]

/-- While an attempt is under way that nothing disturbed, no connection was reported to be down
since the host last took on to connect. -/
theorem undisturbed_of_calm (entries : List Entry) (calm : Calm entries)
    (pending : Pending entries) : Undisturbed entries := by
  -- The induction is on the log from its end, where `Since` and `Throughout` can be followed.
  obtain ⟨reversed, rfl⟩ : ∃ reversed : List Entry, reversed.reverse = entries :=
    ⟨entries.reverse, entries.reverse_reverse⟩
  induction reversed with
  | nil => cases pending
  | cons entry reversed ih =>
    rw [List.reverse_cons] at calm pending ⊢
    obtain ⟨hcalm, hentry⟩ := throughout_concat_iff.1 calm
    refine since_concat_iff.2 ?_
    by_cases hconnects : entry.Connects
    · exact .inl hconnects
    · have hbefore : Pending reversed.reverse := by
        unfold Pending at pending ⊢
        rw [connects_append, answers_append] at pending
        have hzero : connects [entry] = 0 := by simp [connects, hconnects]
        omega
      exact .inr ⟨fun hlost => hentry hlost hbefore, ih hcalm hbefore⟩

end Link

end CameraCentral
