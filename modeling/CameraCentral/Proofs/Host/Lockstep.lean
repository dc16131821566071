import CameraCentral.Proofs.Host.SameHost
import Mathlib.Data.List.Forall2

/-!
# Machines in lockstep

A machine carries calls out, one after the other, and each of them is a dialogue with the host.  Let
`seen` be a way to look at the states of a machine, and `told` a way to look at its calls.  If it
makes no difference whether one looks before a call is carried out or after, then two runs that look
the same in the beginning, with calls that look the same and with the same host, look the same all
the way (`Turns.lockstep`).
-/

namespace CameraCentral

namespace Dialogue

variable {σ κ ρ : Type}

/-- One call of a machine, carried out against some host. -/
structure Turn (act : σ → κ → Dialogue (σ × ρ)) where
  before : σ
  call : κ
  exchanges : List Exchange
  response : ρ
  after : σ
  /-- The turn follows a branch of the dialogue of its call. -/
  yields : (act before call).Yields exchanges (after, response)

variable {act : σ → κ → Dialogue (σ × ρ)} {seen : σ → σ} {told : κ → κ}

/-- The turns follow on each other, from the start to the finish. -/
def Turns (start : σ) : List (Turn act) → σ → Prop
  | [], finish => finish = start
  | turn :: later, finish => turn.before = start ∧ Turns turn.after later finish

/-- Turns that follow on each other are followed by one that begins where they end. -/
theorem turns_concat_iff {start finish : σ} {history : List (Turn act)} {turn : Turn act} :
    Turns start (history ++ [turn]) finish ↔
      Turns start history turn.before ∧ finish = turn.after := by
  induction history generalizing start with
  | nil => exact and_congr_left fun _ => Iff.rfl
  | cons first history ih =>
    rw [List.cons_append, Turns, Turns, ih, and_assoc]

/-- Two turns agree: the requests, the answers and the response are the same, and the states before
and after are alike. -/
structure Turn.Agree (alike : σ → σ → Prop) (turn turn' : Turn act) : Prop where
  exchanges : turn'.exchanges = turn.exchanges
  response : turn'.response = turn.response
  before : alike turn.before turn'.before
  after : alike turn.after turn'.after

/-- Turns agree on less if they agree on more. -/
theorem Turn.Agree.mono {alike alike' : σ → σ → Prop} {turn turn' : Turn act}
    (agree : turn.Agree alike turn') (h : ∀ s s', alike s s' → alike' s s') :
    turn.Agree alike' turn' :=
  ⟨agree.exchanges, agree.response, h _ _ agree.before, h _ _ agree.after⟩

/-- Two turns that look the same before look the same after, if the host is the same. -/
theorem Turn.agree
    (commutes : ∀ state call,
      act (seen state) (told call) = (fun done => (seen done.1, done.2)) <$> act state call)
    {turn turn' : Turn act} (before : seen turn'.before = seen turn.before)
    (call : told turn'.call = told turn.call) (host : SameHost turn.exchanges turn'.exchanges) :
    turn.Agree (fun s s' => seen s' = seen s) turn' := by
  have view : ∀ t : Turn act, (act (seen t.before) (told t.call)).Yields t.exchanges
      (seen t.after, t.response) := by
    intro t
    rw [commutes]
    exact yields_map_iff.2 ⟨_, t.yields, rfl⟩
  have view' := view turn'
  rw [before, call] at view'
  obtain ⟨hexchanges, hdone⟩ := (view turn).eq_of_sameHost view' host
  obtain ⟨hafter, hresponse⟩ := Prod.ext_iff.1 hdone
  exact ⟨hexchanges.symm, hresponse.symm, before, hafter.symm⟩

/-- **Runs that look the same in the beginning look the same all the way**, with the same host. -/
theorem Turns.lockstep
    (commutes : ∀ state call,
      act (seen state) (told call) = (fun done => (seen done.1, done.2)) <$> act state call)
    {history history' : List (Turn act)} {start start' finish finish' : σ}
    (turns : Turns start history finish) (turns' : Turns start' history' finish')
    (same : seen start' = seen start)
    (calls : history'.map (fun turn => told turn.call) = history.map fun turn => told turn.call)
    (host : SameHost (history.flatMap (·.exchanges)) (history'.flatMap (·.exchanges))) :
    List.Forall₂ (Turn.Agree fun s s' => seen s' = seen s) history history' ∧
      seen finish' = seen finish := by
  induction history generalizing history' start start' with
  | nil =>
    obtain rfl : history' = [] := List.map_eq_nil_iff.1 calls
    obtain rfl : finish = start := turns
    obtain rfl : finish' = start' := turns'
    exact ⟨.nil, same⟩
  | cons turn history ih =>
    cases history' with
    | nil => cases calls
    | cons turn' history' =>
      obtain ⟨rfl, later⟩ := turns
      obtain ⟨rfl, later'⟩ := turns'
      simp only [List.map_cons, List.cons.injEq] at calls
      rw [List.flatMap_cons, List.flatMap_cons] at host
      have agree := Turn.agree commutes same calls.1 (host.of_append _ _)
      rw [agree.exchanges, sameHost_append_iff] at host
      obtain ⟨hhistory, hfinish⟩ := ih later later' agree.after calls.2 host
      exact ⟨.cons agree hhistory, hfinish⟩

/-! ### Hosts that accept everything -/

/-- The turn in which a call is carried out against a host that accepts everything. -/
def Turn.granted (act : σ → κ → Dialogue (σ × ρ)) (state : σ) (call : κ) : Turn act where
  before := state
  call := call
  exchanges := ((act state call).run (fun _ _ => (.accepted, ())) ()).exchanges
  response := ((act state call).run (fun _ _ => (.accepted, ())) ()).value.2
  after := ((act state call).run (fun _ _ => (.accepted, ())) ()).value.1
  yields := yields_run _ _ ()

/-- The turns of calls that are carried out one after the other against such a host. -/
def grantedTurns (act : σ → κ → Dialogue (σ × ρ)) (state : σ) : List κ → List (Turn act)
  | [] => []
  | call :: calls =>
    .granted act state call :: grantedTurns act (Turn.granted act state call).after calls

/-- The state after these calls. -/
def grantedEnd (act : σ → κ → Dialogue (σ × ρ)) (state : σ) : List κ → σ
  | [] => state
  | call :: calls => grantedEnd act (Turn.granted act state call).after calls

/-- These turns follow on each other. -/
theorem turns_granted (state : σ) (calls : List κ) :
    Turns state (grantedTurns act state calls) (grantedEnd act state calls) := by
  induction calls generalizing state with
  | nil => rfl
  | cons call calls ih => exact ⟨rfl, ih _⟩

end Dialogue

end CameraCentral
