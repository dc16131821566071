/-!
# Speaking about histories

A history is the list of everything that happened in a run, in order.  Two ways of speaking about
histories are used throughout.  `Since hold start` says that `start` happened and that `hold` was
true of everything that happened after it.  `Throughout p` says that `p` holds of everything that
happened, given what went before it.  Both are followed along a run by looking at what happened last
alone (`since_concat_iff`, `throughout_concat_iff`), and both can be decided for a given history.

What is done to a machine one input after the other makes a history as well: `trail` keeps each
input with the state that it met.
-/

namespace CameraCentral

variable {α : Type}

/-- `start` happened in a history, and `hold` was true of everything that happened since. -/
def Since (hold start : α → Prop) (history : List α) : Prop :=
  ∃ earlier a later, history = earlier ++ a :: later ∧ start a ∧ ∀ b ∈ later, hold b

/-- `p` is true of everything that happened in a history, given what happened before it. -/
def Throughout (p : List α → α → Prop) (history : List α) : Prop :=
  ∀ earlier a later, history = earlier ++ a :: later → p earlier a

/-- Nothing happened in an empty history. -/
theorem not_since_nil (hold start : α → Prop) : ¬ Since hold start [] := by
  rintro ⟨earlier, a, later, heq, -, -⟩
  simp at heq

/-- Something happened and something else held since, if it just happened, or if this was so before
and it held once more. -/
theorem since_concat_iff {hold start : α → Prop} {history : List α} {a : α} :
    Since hold start (history ++ [a]) ↔ start a ∨ hold a ∧ Since hold start history := by
  constructor
  · rintro ⟨earlier, b, later, heq, hb, hlater⟩
    rcases List.eq_nil_or_concat later with rfl | ⟨later, c, rfl⟩
    · obtain ⟨-, hab⟩ := List.append_inj' heq rfl
      obtain rfl : a = b := by simpa using hab
      exact .inl hb
    · rw [List.concat_eq_append, ← List.cons_append, ← List.append_assoc] at heq
      obtain ⟨rfl, hac⟩ := List.append_inj' heq rfl
      obtain rfl : a = c := by simpa using hac
      refine .inr ⟨hlater a (by simp), earlier, b, later, rfl, hb, fun d hd => ?_⟩
      exact hlater d (by simp [hd])
  · rintro (ha | ⟨ha, earlier, b, later, rfl, hb, hlater⟩)
    · exact ⟨history, a, [], rfl, ha, by simp⟩
    · refine ⟨earlier, b, later ++ [a], by simp, hb, fun c hc => ?_⟩
      rcases List.mem_append.1 hc with hc | hc
      · exact hlater c hc
      · exact List.mem_singleton.1 hc ▸ ha

theorem throughout_nil (p : List α → α → Prop) : Throughout p [] := by
  intro earlier a later heq
  simp at heq

/-- Something is true throughout a history if it was before and is true of what happened last. -/
theorem throughout_concat_iff {p : List α → α → Prop} {history : List α} {a : α} :
    Throughout p (history ++ [a]) ↔ Throughout p history ∧ p history a := by
  constructor
  · intro h
    refine ⟨fun earlier b later heq => ?_, h history a [] rfl⟩
    exact h earlier b (later ++ [a]) (by rw [heq, List.append_assoc, List.cons_append])
  · rintro ⟨h, ha⟩ earlier b later heq
    rcases List.eq_nil_or_concat later with rfl | ⟨later, c, rfl⟩
    · obtain ⟨rfl, hab⟩ := List.append_inj' heq rfl
      obtain rfl : a = b := by simpa using hab
      exact ha
    · rw [List.concat_eq_append, ← List.cons_append, ← List.append_assoc] at heq
      obtain ⟨heq, -⟩ := List.append_inj' heq rfl
      exact h earlier b later heq

/-- What is no start and breaks nothing that held does not matter for `Since`. -/
theorem since_append_iff {hold start : α → Prop} {history later : List α}
    (h : ∀ a ∈ later, ¬ start a ∧ hold a) :
    Since hold start (history ++ later) ↔ Since hold start history := by
  induction later generalizing history with
  | nil => rw [List.append_nil]
  | cons a later ih =>
    obtain ⟨hstart, hhold⟩ := h a List.mem_cons_self
    rw [← List.singleton_append, ← List.append_assoc,
      ih fun b hb => h b (List.mem_cons_of_mem a hb), since_concat_iff]
    simp [hstart, hhold]

/-- While nothing starts, all that matters for `Since` is whether everything holds. -/
theorem since_append_iff_of_not_start {hold start : α → Prop} {history later : List α}
    (h : ∀ a ∈ later, ¬ start a) :
    Since hold start (history ++ later) ↔ (∀ a ∈ later, hold a) ∧ Since hold start history := by
  induction later generalizing history with
  | nil => simp
  | cons a later ih =>
    rw [← List.singleton_append, ← List.append_assoc,
      ih fun b hb => h b (List.mem_cons_of_mem a hb), since_concat_iff]
    have hstart : ¬ start a := h a List.mem_cons_self
    simp only [hstart, false_or, List.singleton_append, List.forall_mem_cons, and_assoc]
    exact and_left_comm

/-- Something is true throughout two stretches of a history if it is true throughout the first, and
throughout the second given the first. -/
theorem throughout_append_iff {p : List α → α → Prop} {history later : List α} :
    Throughout p (history ++ later) ↔
      Throughout p history ∧ Throughout (fun past a => p (history ++ past) a) later := by
  constructor
  · intro h
    refine ⟨fun earlier a rest heq => ?_, fun earlier a rest heq => ?_⟩
    · exact h earlier a (rest ++ later) (by rw [heq, List.append_assoc, List.cons_append])
    · exact h (history ++ earlier) a rest (by rw [heq, List.append_assoc])
  · rintro ⟨hhistory, hlater⟩ earlier a rest heq
    rcases List.append_eq_append_iff.1 heq with ⟨middle, rfl, hmiddle⟩ | ⟨middle, hmiddle, hrest⟩
    · exact hlater middle a rest hmiddle
    · cases middle with
      | nil =>
        obtain rfl : history = earlier := by simpa using hmiddle
        have hfirst : p (history ++ []) a := hlater [] a rest (by simpa using hrest.symm)
        rwa [List.append_nil] at hfirst
      | cons b middle =>
        simp only [List.cons_append, List.cons.injEq] at hrest
        obtain ⟨rfl, -⟩ := hrest
        exact hhistory earlier a middle hmiddle

/-- Something is true throughout a history if it is true of what happened first, and throughout the
rest given that. -/
theorem throughout_cons_iff {p : List α → α → Prop} {a : α} {later : List α} :
    Throughout p (a :: later) ↔ p [] a ∧ Throughout (fun past b => p (a :: past) b) later := by
  have hfirst : Throughout p [a] ↔ p [] a := by
    rw [← List.nil_append [a], throughout_concat_iff]
    exact and_iff_right (throughout_nil p)
  rw [← List.singleton_append, throughout_append_iff, hfirst]
  exact Iff.rfl

/-- Whether something happened and something else held since is decided from the end of the history
backwards. -/
def Since.decide (hold start : α → Prop) [DecidablePred hold] [DecidablePred start] :
    (reversed : List α) → Decidable (Since hold start reversed.reverse)
  | [] => .isFalse (not_since_nil hold start)
  | a :: reversed =>
    have := Since.decide hold start reversed
    decidable_of_iff (start a ∨ hold a ∧ Since hold start reversed.reverse) (by
      rw [List.reverse_cons, since_concat_iff])

instance (hold start : α → Prop) [DecidablePred hold] [DecidablePred start] (history : List α) :
    Decidable (Since hold start history) :=
  have := Since.decide hold start history.reverse
  decidable_of_iff (Since hold start history.reverse.reverse) (by rw [List.reverse_reverse])

/-- Whether something is true throughout a history is decided from its end backwards. -/
def Throughout.decide (p : List α → α → Prop) [∀ history a, Decidable (p history a)] :
    (reversed : List α) → Decidable (Throughout p reversed.reverse)
  | [] => .isTrue (throughout_nil p)
  | a :: reversed =>
    have := Throughout.decide p reversed
    decidable_of_iff (Throughout p reversed.reverse ∧ p reversed.reverse a) (by
      rw [List.reverse_cons, throughout_concat_iff])

instance (p : List α → α → Prop) [∀ history a, Decidable (p history a)] (history : List α) :
    Decidable (Throughout p history) :=
  have := Throughout.decide p history.reverse
  decidable_of_iff (Throughout p history.reverse.reverse) (by rw [List.reverse_reverse])

/-! ## Machines -/

/-- An input to a machine, and the state that it met. -/
structure Encounter (σ ι : Type) where
  before : σ
  input : ι
deriving DecidableEq, Repr

variable {σ ι : Type}

/-- What happens to a machine that is given inputs one after the other. -/
def trail (step : σ → ι → σ) (state : σ) : List ι → List (Encounter σ ι)
  | [] => []
  | input :: inputs => ⟨state, input⟩ :: trail step (step state input) inputs

theorem trail_concat (step : σ → ι → σ) (state : σ) (inputs : List ι) (input : ι) :
    trail step state (inputs ++ [input]) =
      trail step state inputs ++ [⟨inputs.foldl step state, input⟩] := by
  induction inputs generalizing state with
  | nil => rfl
  | cons first inputs ih =>
    rw [List.cons_append, trail, ih, trail, List.cons_append, List.foldl_cons]

end CameraCentral
