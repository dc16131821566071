import CameraCentral.Host.Dialogue

/-!
# Scripted hosts

A scripted host accepts every request for which it has no rule.  A rule lets a number of requests
of its kind pass, then refuses a number of them or all that follow, and then lets the rest pass.
Dialogues are carried out against scripted hosts to see what they do when requests are refused.
-/

namespace CameraCentral

/-- When to refuse the requests of one kind. -/
structure Script.Rule where
  /-- The reason given for a refusal. -/
  fault : HostFault
  /-- How many requests pass first. -/
  skip : Nat := 0
  /-- How many requests are refused after that, if not all of them are. -/
  times : Option Nat := none
deriving DecidableEq, Repr

/-- The answer to a request under a rule, and the rule for the next one. -/
def Script.Rule.reply (rule : Script.Rule) : Answer × Script.Rule :=
  match rule.skip, rule.times with
  | skip + 1, _ => (.accepted, { rule with skip := skip })
  | 0, none => (.refused rule.fault, rule)
  | 0, some 0 => (.accepted, rule)
  | 0, some (times + 1) => (.refused rule.fault, { rule with times := some times })

/-- A host that answers by rules, at most one for each kind of request. -/
structure Script where
  rules : List (Request.Kind × Script.Rule) := []
deriving Repr

namespace Script

/-- Replaces the rule for a kind of request. -/
def set (script : Script) (kind : Request.Kind) (rule : Option Rule) : Script where
  rules := (rule.map (kind, ·)).toList ++ script.rules.filter fun entry => entry.1 ≠ kind

/-- The answer of a scripted host. -/
def reply (script : Script) (request : Request) : Answer × Script :=
  match script.rules.lookup request.kind with
  | none => (.accepted, script)
  | some rule =>
    let answered := rule.reply
    (answered.1, script.set request.kind (some answered.2))

end Script

end CameraCentral
