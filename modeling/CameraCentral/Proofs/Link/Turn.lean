import CameraCentral.Link.Events

/-!
# Turns of the link

A *turn* is one call of the link, with the requests that it made of the host while it was carried
out, the answers that it got, and what it left behind.  A turn is a branch of the dialogue of its
call, so it holds for some host; what holds of every turn holds against every host.

Turns do not fail: a call that is refused is a turn with the refusal as its response.  What a turn
can do is listed in `CameraCentral.Proofs.Link.Step`.
-/

namespace CameraCentral

namespace Link

/-! ## Calls -/

/-- What the link can be asked, or told. -/
inductive Call where
  | event (event : Event)
  | startScan
  | stopScan
  | write (payload : Bytes)
  | perform (command : Command)
deriving DecidableEq, Repr

/-- What a call returns: a reaction to an event, or the result of what was asked for. -/
inductive Response where
  | reaction (reaction : Reaction)
  | result (result : Except Fault Unit)

/-- The dialogue that carries a call out. -/
def Call.dialogue (link : Link) : Call → Dialogue (Link × Response)
  | event e => (fun done => (done.1, .reaction done.2)) <$> link.onEvent e
  | startScan => (fun done => (done.1, .result done.2)) <$> link.startScan
  | stopScan => (fun done => (done.1, .result done.2)) <$> link.stopScan
  | write payload => (fun result => (link, .result result)) <$> link.writeCommand payload
  | perform command => (fun done => (done.1, .result done.2)) <$> link.perform command

/-- A command of another part of the system is one of the direct calls. -/
def Call.direct : Call → Call
  | perform .startScan => startScan
  | perform .stopScan => stopScan
  | perform (.write payload) => write payload
  | call => call

/-- A command is carried out as the direct call that it stands for. -/
theorem Call.dialogue_direct (link : Link) (call : Call) :
    call.direct.dialogue link = call.dialogue link := by
  cases call with
  | perform command =>
    cases command with
    | startScan => rfl
    | stopScan => rfl
    | write payload =>
      exact comp_map (fun result => (link, result)) (fun done => (done.1, Response.result done.2))
        (link.writeCommand payload)
  | event e => rfl
  | startScan => rfl
  | stopScan => rfl
  | write payload => rfl

/-! ## Turns -/

/-- One call of the link, carried out against some host. -/
structure Turn where
  before : Link
  call : Call
  exchanges : List Exchange
  response : Response
  after : Link
  /-- The turn follows a branch of the dialogue of its call. -/
  yields : (call.dialogue before).Yields exchanges (after, response)

/-- The turn in which a call is carried out against a host that answers a request according to its
state. -/
def Turn.against {σ : Type} (reply : σ → Request → Answer × σ) (host : σ) (link : Link)
    (call : Call) : Turn where
  before := link
  call := call
  exchanges := ((call.dialogue link).run reply host).exchanges
  response := ((call.dialogue link).run reply host).value.2
  after := ((call.dialogue link).run reply host).value.1
  yields := Dialogue.yields_run reply _ host

end Link

end CameraCentral
