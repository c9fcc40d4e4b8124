import AwardsDesk.Board.Action
import AwardsDesk.Board.Config
import AwardsDesk.Gate.Basic

/-!
# Awards boards

A board is a view and a gate.  Every action that reads the backend and changes the
view runs while holding the gate, so these sequences never mix.  An action that was
started and has not ended is a job of the board: it waits for the gate, or holds it
and waits for the backend.

Main definitions:

- Functions {lit}`Board.start`, {lit}`Board.resume`, {lit}`Board.answer` and
  {lit}`Board.cancel`: an action begins, goes on, hears from the backend, or is
  given up.
-/

namespace AwardsDesk
namespace Board

/-- What a job is waiting for. -/
inductive Stage where
  /-- Its turn at the gate. -/
  | queued (request : Nat)
  /-- The answer of the backend, while it holds the gate. -/
  | calling (ticket : Nat) (await : Await)
deriving DecidableEq, Repr

/-- An action under way. -/
structure Job where
  id : Nat
  action : Action
  stage : Stage
deriving DecidableEq, Repr

end Board

/-- A board: its gate, its view, the actions under way in order of their start, and how
many have been under way so far. -/
structure Board where
  gate : Gate
  view : Board.View := {}
  jobs : List Board.Job := []
  started : Nat := 0
deriving Repr, Inhabited

namespace Board

/-- A board with a gate of its own and the configured event selected. -/
def ofConfig (c : Config) : Except Error Board := do
  c.validate
  let gate ← (Gate.make c.gateName c.gate).mapError Error.gate
  return { gate, view := { eventId := c.eventId } }

/-- How far an action got.  A job is known by its number. -/
inductive Advance where
  | ended (result : Except Error Outcome)
  | waiting (job : Nat)
  /-- The job has just made a request. -/
  | asking (job : Nat) (request : Request)

/-! ## Jobs -/

/-- The job of a number. -/
def job? (b : Board) (id : Nat) : Option Job :=
  b.jobs.find? (·.id == id)

/-- Removes a job. -/
def removeJob (b : Board) (id : Nat) : Board :=
  { b with jobs := b.jobs.eraseP (·.id == id) }

/-- Notes what a job waits for. -/
def setStage (b : Board) (id : Nat) (stage : Stage) : Board :=
  { b with jobs := b.jobs.map fun j => if j.id = id then { j with stage } else j }

/-- The request that a job has made. -/
def request? (b : Board) (id : Nat) : Option Request :=
  match b.job? id with
  | some { stage := .calling _ w, .. } => some w.request
  | _ => none

/-- A job is over. -/
def close (b : Board) (j : Job) (result : Except Error Outcome) : Board × Except Error Outcome :=
  let b := b.removeJob j.id
  match result with
  | .error (.gate _) => ({ b with view := j.action.afterGateError b.view }, result)
  | _ => (b, result)

/-- A job gives the gate back and is over. -/
def leave (b : Board) (j : Job) (ticket : Nat) (result : Except Error Outcome) :
    Board × Except Error Outcome :=
  match b.gate.unlock ticket with
  | .ok g => { b with gate := g.drop ticket }.close j result
  | .error e => { b with gate := b.gate.drop ticket }.close j (.error (.gate e))

/-- A job got the gate and does the first half of its action. -/
def enter (b : Board) (j : Job) (ticket : Nat) : Board × Advance :=
  match b.gate.lock ticket with
  | .error e =>
    let (b, result) := { b with gate := b.gate.drop ticket }.close j (.error (.gate e))
    (b, .ended result)
  | .ok g =>
    let b := { b with gate := g }
    match j.action.begin b.view with
    | .ended view result =>
      let (b, result) := { b with view }.leave j ticket result
      (b, .ended result)
    | .asking w => (b.setStage j.id (.calling ticket w), .asking j.id w.request)

/-! ## Events -/

/-- An action is started. -/
def start (b : Board) (now : Nat) (a : Action) : Board × Advance :=
  match a.early? b.view with
  | some result => (b, .ended result)
  | none =>
    let (gate, admission) := b.gate.acquire now
    let id := b.started
    match admission with
    | .granted ticket =>
      let j : Job := { id, action := a, stage := .queued ticket }
      { b with gate, jobs := b.jobs ++ [j], started := id + 1 }.enter j ticket
    | .queued request =>
      let j : Job := { id, action := a, stage := .queued request }
      ({ b with gate, jobs := b.jobs ++ [j], started := id + 1 }, .waiting id)

/-- A job that waits for the gate goes on. -/
def resume (b : Board) (now id : Nat) : Board × Advance :=
  match b.job? id with
  | some { stage := .queued request, action, .. } =>
    let j : Job := { id, action, stage := .queued request }
    let (gate, turn) := b.gate.resume now request
    let b := { b with gate }
    match turn with
    | .waiting => (b, .waiting id)
    | .timedOut =>
      let (b, result) := b.close j (.error (.gate gate.timeoutError))
      (b, .ended result)
    | .granted => b.enter j request
  | _ => (b, .waiting id)

/-- A job hears from the backend, shows the answer and gives the gate back. -/
def answer (b : Board) (id : Nat) (respond : Responder) : Board × Advance :=
  match b.job? id with
  | some { stage := .calling ticket w, action, .. } =>
    let j : Job := { id, action, stage := .calling ticket w }
    let (view, result) := w.finish (respond w.request) b.view
    let (b, result) := { b with view }.leave j ticket result
    (b, .ended result)
  | _ => (b, .waiting id)

/-- A job is given up: it leaves the queue, or drops its ticket. -/
def cancel (b : Board) (id : Nat) : Board :=
  match b.job? id with
  | some { stage := .queued request, .. } => { b.removeJob id with gate := b.gate.cancel request }
  | some { stage := .calling ticket _, .. } => { b.removeJob id with gate := b.gate.drop ticket }
  | none => b

end Board
end AwardsDesk
