import CameraCentral.Host.Dialogue

/-!
# Two dialogues with one host

A dialogue is decided by the answers that it gets.  To compare two operations one lets them talk to
the same host, and a host is free to answer the same request differently at different times.  All
that is asked of it is this: as long as it has been asked the same things, it gives the same
answers.  `SameHost` says so of two lists of exchanges, without a word on how the host comes to its
answers, and it says nothing about what follows once different requests were made.

Two branches of one dialogue with the same host are the same branch (`Yields.eq_of_sameHost`), so
whoever shows that two operations are one dialogue, up to a view of their results, has shown that no
host can tell them apart.
-/

namespace CameraCentral

/-- Two lists of exchanges can be with the same host: as long as the requests are the same, so are
the answers. -/
def SameHost : List Exchange → List Exchange → Prop
  | x :: xs, y :: ys => x.request = y.request → x.answer = y.answer ∧ SameHost xs ys
  | _, _ => True

/-- Whether two lists of exchanges can be with the same host is decided along them. -/
def SameHost.decide : (xs ys : List Exchange) → Decidable (SameHost xs ys)
  | x :: xs, y :: ys =>
    have := SameHost.decide xs ys
    inferInstanceAs (Decidable (x.request = y.request → x.answer = y.answer ∧ SameHost xs ys))
  | [], _ => .isTrue trivial
  | _ :: _, [] => .isTrue trivial

instance (xs ys : List Exchange) : Decidable (SameHost xs ys) := SameHost.decide xs ys

/-- What can be with the same host begins as something that can. -/
theorem SameHost.of_append {xs ys : List Exchange} (later later' : List Exchange)
    (h : SameHost (xs ++ later) (ys ++ later')) : SameHost xs ys := by
  induction xs generalizing ys with
  | nil => trivial
  | cons x xs ih =>
    cases ys with
    | nil => trivial
    | cons y ys =>
      intro hrequest
      obtain ⟨hanswer, hrest⟩ := h hrequest
      exact ⟨hanswer, ih hrest⟩

/-- After the same beginning the host is still the same. -/
theorem sameHost_append_iff {xs later later' : List Exchange} :
    SameHost (xs ++ later) (xs ++ later') ↔ SameHost later later' := by
  induction xs with
  | nil => exact Iff.rfl
  | cons x xs ih =>
    rw [← ih]
    constructor
    · intro h
      exact (h rfl).2
    · intro h _
      exact ⟨rfl, h⟩

namespace Dialogue

variable {α β : Type}

/-- **A dialogue is decided by the host.**  Two of its branches that can be with the same host are
the same branch. -/
theorem Yields.eq_of_sameHost {d : Dialogue α} {xs ys : List Exchange} {value value' : α}
    (h : d.Yields xs value) (h' : d.Yields ys value') (same : SameHost xs ys) :
    xs = ys ∧ value = value' := by
  induction h generalizing ys with
  | done value =>
    obtain ⟨rfl, rfl⟩ := yields_done_iff.1 h'
    exact ⟨rfl, rfl⟩
  | @ask r next answer xs value h ih =>
    obtain ⟨answer', rest, rfl, hrest⟩ := yields_ask_iff.1 h'
    obtain ⟨hanswer, hsame⟩ := same rfl
    obtain rfl : answer = answer' := hanswer
    obtain ⟨rfl, rfl⟩ := ih hrest hsame
    exact ⟨rfl, rfl⟩

/-- Two views of a dialogue are the same if they agree on every value that it can end with. -/
theorem map_congr_of_yields {d : Dialogue α} {f g : α → β}
    (h : ∀ exchanges value, d.Yields exchanges value → f value = g value) : f <$> d = g <$> d := by
  induction d with
  | done value => exact congrArg Dialogue.done (h [] value (.done value))
  | ask r next ih =>
    simp only [map_ask]
    congr 1
    funext answer
    exact ih answer fun exchanges value hvalue => h (⟨r, answer⟩ :: exchanges) value (.ask hvalue)

end Dialogue

end CameraCentral
