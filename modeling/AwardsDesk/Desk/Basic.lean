import AwardsDesk.Desk.Backend
import AwardsDesk.Board.Basic
import AwardsDesk.Progress

/-!
# Desks

A desk is a board together with its backend, which takes some time to answer.  A job
of the board is run by waiting for the gate, making its request, and waiting for the
answer.

Main definitions:

- Functions {lit}`Desk.start`, {lit}`Desk.resume` and {lit}`Desk.cancel`: an action is
  run on a desk.
-/

namespace AwardsDesk

/-- A board, its backend, and the milliseconds that the backend takes to answer. -/
structure Desk where
  board : Board
  backend : Backend
  latency : Nat := 0
deriving Repr, Inhabited

namespace Desk

open Board (Request Error Outcome Action)

/-- A job that is run: the number of the job, and when the answer to its request comes
if it has made one. -/
structure Errand where
  job : Nat
  due : Option Nat := none
deriving DecidableEq, Repr

/-- How far an action got on a desk. -/
abbrev Run := Progress Errand (Except Error Outcome)

/-- The answer to the request of a job comes. -/
def answer (d : Desk) (job : Nat) (r : Request) : Desk × Run :=
  let (board, advance) := d.board.answer job fun r => (d.backend.finish r).2
  let d := { d with board, backend := (d.backend.finish r).1 }
  match advance with
  | .ended result => (d, .ended result)
  | _ => (d, .waiting { job })

/-- A request that a job has just made begins, and ends at once if the backend takes no
time. -/
def follow (d : Desk) (now : Nat) : Board.Advance → Desk × Run
  | .ended result => (d, .ended result)
  | .waiting job => (d, .waiting { job })
  | .asking job r =>
    let d := { d with backend := d.backend.begin r }
    if d.latency = 0 then d.answer job r
    else (d, .waiting { job, due := some (now + d.latency) })

/-- An action is started. -/
def start (d : Desk) (now : Nat) (a : Action) : Desk × Run :=
  let (board, advance) := d.board.start now a
  { d with board }.follow now advance

/-- An action goes on as far as it can. -/
def resume (d : Desk) (now : Nat) (e : Errand) : Desk × Run :=
  match e.due with
  | some due =>
    if due ≤ now then
      match d.board.request? e.job with
      | some r => d.answer e.job r
      | none => (d, .waiting e)
    else (d, .waiting e)
  | none =>
    let (board, advance) := d.board.resume now e.job
    { d with board }.follow now advance

/-- An action is given up.  A request under way is not told. -/
def cancel (d : Desk) (e : Errand) : Desk :=
  { d with board := d.board.cancel e.job }

/-- The request by which a job waits for the gate, if it does. -/
def gateRequest? (d : Desk) (e : Errand) : Option Nat :=
  match d.board.job? e.job with
  | some { stage := .queued request, .. } => some request
  | _ => none

/-- The job that waited for the gate and has been granted it, if there is one. -/
def grantedJob? (d : Desk) : Option Nat :=
  d.board.gate.slot.grant.bind fun request =>
    (d.board.jobs.find? (·.stage == .queued request)).map (·.id)

/-- When a job goes on at the latest: when the answer comes, or when its wait for the
gate ends. -/
def deadline? (d : Desk) (e : Errand) : Option Nat :=
  match e.due with
  | some due => some due
  | none =>
    (d.gateRequest? e).bind fun request =>
      (d.board.gate.waiting.find? (·.id == request)).map (·.deadline)

end Desk
end AwardsDesk
