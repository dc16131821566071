import CameraCentral.Host.Request

/-!
# Dialogues with the host

An operation of the central makes requests and goes on according to the answers.  A `Dialogue` is
such an operation as data: it is either done, or it asks for something and has a continuation for
every answer.  So an operation says nothing about the host, and what holds for every host is what
holds for every branch of the dialogue.

There are two ways to look at a dialogue.  `Dialogue.run` carries it out against a host, which is
given by the answer that it makes in each of its states.  `Dialogue.Yields` relates a dialogue to
the exchanges of one of its branches and to the value at the end; `yields_run` says that a run is
one of the branches.
-/

namespace CameraCentral

/-- An operation that makes requests and goes on according to the answers. -/
inductive Dialogue (α : Type) where
  /-- The operation is over. -/
  | done (value : α)
  /-- The operation makes a request and waits for the answer. -/
  | ask (request : Request) (next : Answer → Dialogue α)

namespace Dialogue

variable {α β γ σ : Type}

/-- Carries out one dialogue and then another that depends on its value. -/
def bind : Dialogue α → (α → Dialogue β) → Dialogue β
  | done value, f => f value
  | ask request next, f => ask request fun answer => (next answer).bind f

instance : Monad Dialogue where
  pure := done
  bind := bind

/-- Makes one request. -/
def request (r : Request) : Dialogue Answer := ask r done

@[simp] theorem done_bind (value : α) (f : α → Dialogue β) : done value >>= f = f value := rfl

@[simp] theorem ask_bind (r : Request) (next : Answer → Dialogue α) (f : α → Dialogue β) :
    ask r next >>= f = ask r fun answer => next answer >>= f := rfl

theorem bind_done (d : Dialogue α) : d >>= done = d := by
  induction d with
  | done value => rfl
  | ask r next ih => simp only [ask_bind, ih]

theorem bind_bind (d : Dialogue α) (f : α → Dialogue β) (g : β → Dialogue γ) :
    d >>= f >>= g = d >>= fun value => f value >>= g := by
  induction d with
  | done value => rfl
  | ask r next ih => simp only [ask_bind, ih]

instance : LawfulMonad Dialogue :=
  LawfulMonad.mk' Dialogue bind_done (fun _ _ => rfl) bind_bind

@[simp] theorem map_done (f : α → β) (value : α) : f <$> (done value) = done (f value) := rfl

@[simp] theorem map_ask (f : α → β) (r : Request) (next : Answer → Dialogue α) :
    f <$> (ask r next) = ask r fun answer => f <$> next answer := rfl

/-- Two dialogues that make the same request are the same if they go on in the same way after the
host's consent and after each refusal. -/
theorem ask_congr {r : Request} {next next' : Answer → Dialogue α}
    (accepted : next .accepted = next' .accepted)
    (refused : ∀ why, next (.refused why) = next' (.refused why)) : ask r next = ask r next' := by
  congr 1
  funext answer
  cases answer with
  | accepted => exact accepted
  | refused why => exact refused why

/-! ## Carrying a dialogue out -/

/-- What a dialogue came to with a host. -/
structure Run (σ α : Type) where
  /-- The value at the end. -/
  value : α
  /-- The requests made, each with its answer, in order. -/
  exchanges : List Exchange
  /-- The state in which the host was left. -/
  host : σ

/-- The requests made in a run, in order. -/
def Run.requests (run : Run σ α) : List Request := run.exchanges.map Exchange.request

/-- Carries a dialogue out against the host that answers a request according to its state. -/
def run (reply : σ → Request → Answer × σ) : Dialogue α → σ → Run σ α
  | done value, host => ⟨value, [], host⟩
  | ask r next, host =>
    let answered := reply host r
    let rest := (next answered.1).run reply answered.2
    { rest with exchanges := ⟨r, answered.1⟩ :: rest.exchanges }

@[simp] theorem run_done (reply : σ → Request → Answer × σ) (value : α) (host : σ) :
    (done value).run reply host = ⟨value, [], host⟩ := rfl

@[simp] theorem run_ask (reply : σ → Request → Answer × σ) (r : Request)
    (next : Answer → Dialogue α) (host : σ) :
    (ask r next).run reply host =
      ⟨((next (reply host r).1).run reply (reply host r).2).value,
        ⟨r, (reply host r).1⟩ :: ((next (reply host r).1).run reply (reply host r).2).exchanges,
        ((next (reply host r).1).run reply (reply host r).2).host⟩ := rfl

/-- A dialogue in two parts is carried out one part after the other. -/
theorem run_bind (reply : σ → Request → Answer × σ) (d : Dialogue α) (f : α → Dialogue β)
    (host : σ) :
    (d >>= f).run reply host =
      ⟨((f (d.run reply host).value).run reply (d.run reply host).host).value,
        (d.run reply host).exchanges ++
          ((f (d.run reply host).value).run reply (d.run reply host).host).exchanges,
        ((f (d.run reply host).value).run reply (d.run reply host).host).host⟩ := by
  induction d generalizing host with
  | done value => rfl
  | ask r next ih => simp only [ask_bind, run_ask, ih, List.cons_append]

/-- The requests of a dialogue in two parts are made one part after the other. -/
theorem requests_bind (reply : σ → Request → Answer × σ) (d : Dialogue α) (f : α → Dialogue β)
    (host : σ) :
    ((d >>= f).run reply host).requests =
      (d.run reply host).requests ++
        ((f (d.run reply host).value).run reply (d.run reply host).host).requests := by
  rw [run_bind]
  exact List.map_append

/-! ## The branches of a dialogue -/

/-- A dialogue yields a value by way of a list of exchanges if it makes these requests, in this
order, when it is given these answers, and ends with that value. -/
inductive Yields : Dialogue α → List Exchange → α → Prop where
  | done (value : α) : Yields (.done value) [] value
  | ask {r : Request} {next : Answer → Dialogue α} {answer : Answer} {exchanges : List Exchange}
      {value : α} (h : Yields (next answer) exchanges value) :
      Yields (.ask r next) (⟨r, answer⟩ :: exchanges) value

@[simp] theorem yields_done_iff {value value' : α} {exchanges : List Exchange} :
    (done value).Yields exchanges value' ↔ exchanges = [] ∧ value' = value := by
  constructor
  · rintro ⟨⟩
    exact ⟨rfl, rfl⟩
  · rintro ⟨rfl, rfl⟩
    exact .done _

theorem yields_ask_iff {r : Request} {next : Answer → Dialogue α} {exchanges : List Exchange}
    {value : α} :
    (ask r next).Yields exchanges value ↔
      ∃ answer rest, exchanges = ⟨r, answer⟩ :: rest ∧ (next answer).Yields rest value := by
  constructor
  · rintro ⟨⟩
    rename_i answer rest h
    exact ⟨answer, rest, rfl, h⟩
  · rintro ⟨answer, rest, rfl, h⟩
    exact .ask h

/-- After a request a branch goes on with the host's consent or with its refusal. -/
theorem Yields.ask_cases {r : Request} {next : Answer → Dialogue α} {exchanges : List Exchange}
    {value : α} (h : (Dialogue.ask r next).Yields exchanges value) :
    (∃ rest, exchanges = ⟨r, .accepted⟩ :: rest ∧ (next .accepted).Yields rest value) ∨
      ∃ why rest, exchanges = ⟨r, .refused why⟩ :: rest ∧
        (next (.refused why)).Yields rest value := by
  obtain ⟨answer, rest, rfl, hrest⟩ := yields_ask_iff.1 h
  cases answer with
  | accepted => exact .inl ⟨rest, rfl, hrest⟩
  | refused why => exact .inr ⟨why, rest, rfl, hrest⟩

/-- A branch of a dialogue in two parts is a branch of the first part followed by a branch of the
second. -/
theorem yields_bind_iff {d : Dialogue α} {f : α → Dialogue β} {exchanges : List Exchange}
    {value : β} :
    (d >>= f).Yields exchanges value ↔
      ∃ first second middle, exchanges = first ++ second ∧ d.Yields first middle ∧
        (f middle).Yields second value := by
  induction d generalizing exchanges with
  | done middle =>
    rw [done_bind]
    constructor
    · intro h
      exact ⟨[], exchanges, middle, rfl, .done middle, h⟩
    · rintro ⟨first, second, value', rfl, h, h'⟩
      obtain ⟨rfl, rfl⟩ := yields_done_iff.1 h
      exact h'
  | ask r next ih =>
    simp only [ask_bind, yields_ask_iff, ih]
    constructor
    · rintro ⟨answer, rest, rfl, first, second, middle, rfl, h₁, h₂⟩
      exact ⟨_, second, middle, rfl, ⟨answer, first, rfl, h₁⟩, h₂⟩
    · rintro ⟨_, second, middle, rfl, ⟨answer, first, rfl, h₁⟩, h₂⟩
      exact ⟨answer, first ++ second, rfl, first, second, middle, rfl, h₁, h₂⟩

/-- A dialogue whose value is passed through a function has the branches that it has without. -/
theorem yields_map_iff {f : α → β} {d : Dialogue α} {exchanges : List Exchange} {value : β} :
    (f <$> d).Yields exchanges value ↔ ∃ middle, d.Yields exchanges middle ∧ value = f middle := by
  induction d generalizing exchanges with
  | done middle => simp only [map_done, yields_done_iff, and_assoc, exists_and_left, exists_eq_left]
  | ask r next ih =>
    simp only [map_ask, yields_ask_iff, ih]
    constructor
    · rintro ⟨answer, rest, rfl, middle, h, rfl⟩
      exact ⟨middle, ⟨answer, rest, rfl, h⟩, rfl⟩
    · rintro ⟨middle, ⟨answer, rest, rfl, h⟩, rfl⟩
      exact ⟨answer, rest, rfl, middle, h, rfl⟩

/-- Carrying a dialogue out follows one of its branches. -/
theorem yields_run (reply : σ → Request → Answer × σ) (d : Dialogue α) (host : σ) :
    d.Yields (d.run reply host).exchanges (d.run reply host).value := by
  induction d generalizing host with
  | done value => exact .done value
  | ask r next ih => exact .ask (ih _ _)

end Dialogue

end CameraCentral
