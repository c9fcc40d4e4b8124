import AwardsDesk.Board.Basic
import AwardsDesk.Proofs.Gate.Run

/-!
# Runs of a board

What happens to a board, one event after another: actions are started, go on, hear from
the backend and are given up, in any order and with any answers, and others use the gate
of the board meanwhile.  The body of an action is what it does while it holds the gate.

Main definitions:

- Inductive type {lit}`Board.IsNew`: boards at their beginning.
- Inductive type {lit}`Board.Event` and functions {lit}`Board.step` and {lit}`Board.run`.
- Functions {lit}`Board.moves` and {lit}`Board.gateRun`: what is done at the gate in an
  event and in a run.
- Functions {lit}`Board.body?` and {lit}`Board.bodies`: the bodies that end in an event and
  in a run.
- Function {lit}`Board.serial`: bodies one after another, without a gate.
-/

namespace AwardsDesk
namespace Board

/-- The number by which a job is known at the gate. -/
def Stage.number : Stage → Nat
  | queued request => request
  | calling ticket _ => ticket

/-- The number by which a job is known at the gate. -/
def Job.number (j : Job) : Nat :=
  j.stage.number

/-! ## New boards -/

/-- A board that nobody has used yet: one with no event, or one made from a configuration. -/
inductive IsNew : Board → Prop where
  | plain (name : String) (options : Gate.Options) : IsNew { gate := { name, options } }
  | configured (c : Config) (b : Board) (made : ofConfig c = .ok b) : IsNew b

/-- A new board shows an event at most. -/
theorem IsNew.eq {b : Board} (h : b.IsNew) :
    ∃ name options event, b = { gate := { name, options }, view := { eventId := event } } := by
  cases h with
  | plain name options => exact ⟨name, options, none, rfl⟩
  | configured c b made =>
      refine ⟨c.gateName, c.gate, c.eventId, ?_⟩
      rcases exists_of_bind_ok made with ⟨valid, -, made⟩
      rcases exists_of_bind_ok made with ⟨gate, hgate, made⟩
      cases hmake : Gate.make c.gateName c.gate with
      | error e =>
          rw [hmake] at hgate
          cases hgate
      | ok g =>
          rw [hmake] at hgate
          obtain rfl : g = gate := Except.ok.inj hgate
          rcases Gate.usable_of_make hmake with ⟨-, rfl⟩
          exact (Except.ok.inj made).symm

/-! ## Events -/

/-- Something that happens to a board. -/
inductive Event where
  /-- An action is started. -/
  | start (now : Nat) (a : Action)
  /-- A job that waits for the gate goes on. -/
  | resume (now job : Nat)
  /-- A job hears from the backend. -/
  | answer (job : Nat) (respond : Responder)
  /-- A job is given up. -/
  | cancel (job : Nat)
  /-- Somebody else uses the gate. -/
  | outside (e : Gate.Event)

/-- Whether a number at the gate is that of a job. -/
def isOurs (b : Board) (number : Nat) : Bool :=
  b.jobs.any (·.number == number)

/-- Somebody else uses the gate, without the requests and tickets of the jobs. -/
def outside (b : Board) (e : Gate.Event) : Board :=
  if b.isOurs (b.gate.subject e) then b else { b with gate := (b.gate.step e).1 }

/-- One event, and how far the action in it got. -/
def step (b : Board) : Event → Board × Option Advance
  | .start now a => ((b.start now a).1, some (b.start now a).2)
  | .resume now job => ((b.resume now job).1, some (b.resume now job).2)
  | .answer job respond => ((b.answer job respond).1, some (b.answer job respond).2)
  | .cancel job => (b.cancel job, none)
  | .outside e => (b.outside e, none)

/-- Event after event. -/
def run (b : Board) (es : List Event) : Board :=
  es.foldl (fun b e => (b.step e).1) b

/-- A run from an event on. -/
@[simp]
theorem run_cons (b : Board) (e : Event) (es : List Event) :
    b.run (e :: es) = (b.step e).1.run es :=
  rfl

/-- Nothing happens in an empty run. -/
@[simp]
theorem run_nil (b : Board) : b.run [] = b :=
  rfl

/-- A run goes on where another one ended. -/
theorem run_append (b : Board) (es more : List Event) :
    b.run (es ++ more) = (b.run es).run more := by
  simp [run]

/-- The action that an event is about: the one that is started, or that of a job. -/
def caller? (b : Board) : Event → Option Action
  | .start _ a => some a
  | .resume _ job | .answer job _ | .cancel job => (b.job? job).map Job.action
  | .outside _ => none

/-! ## At the gate -/

/-- What a job that got the gate does there: it keeps its ticket locked while it waits for
the backend. -/
def Advance.moves (ticket : Nat) : Advance → List Gate.Event
  | ended _ => [.lock ticket, .unlock ticket, .drop ticket]
  | _ => [.lock ticket]

/-- What is done at the gate in an event. -/
def moves (b : Board) : Event → List Gate.Event
  | .start now a =>
    match a.early? b.view, (b.gate.acquire now).2 with
    | some _, _ => []
    | none, .granted ticket => .acquire now :: (b.start now a).2.moves ticket
    | none, .queued _ => [.acquire now]
  | .resume now job =>
    match b.job? job with
    | some { stage := .queued request, .. } =>
      match (b.gate.resume now request).2 with
      | .granted => .resume now request :: (b.resume now job).2.moves request
      | _ => [.resume now request]
    | _ => []
  | .answer job _ =>
    match b.job? job with
    | some { stage := .calling ticket _, .. } => [.unlock ticket, .drop ticket]
    | _ => []
  | .cancel job =>
    match b.job? job with
    | some { stage := .queued request, .. } => [.cancel request]
    | some { stage := .calling ticket _, .. } => [.drop ticket]
    | none => []
  | .outside e => if b.isOurs (b.gate.subject e) then [] else [e]

/-- What is done at the gate in a run. -/
def gateRun (b : Board) : List Event → List Gate.Event
  | [] => []
  | e :: es => b.moves e ++ gateRun (b.step e).1 es

/-! ## Bodies -/

/-- What an action did while it held the gate: the ticket by which it held it, the request
and who answered it if it made one, and the result. -/
structure Body where
  ticket : Nat
  action : Action
  asked : Option (Await × Responder)
  result : Except Error Outcome

/-- A body that is over if its action is. -/
def Advance.body? (ticket : Nat) (action : Action) (asked : Option (Await × Responder)) :
    Advance → Option Body
  | ended result => some { ticket, action, asked, result }
  | _ => none

/-- The body that ends in an event. -/
def body? (b : Board) : Event → Option Body
  | .start now a =>
    match a.early? b.view, (b.gate.acquire now).2 with
    | none, .granted ticket => (b.start now a).2.body? ticket a none
    | _, _ => none
  | .resume now job =>
    match b.job? job with
    | some { stage := .queued request, action, .. } =>
      match (b.gate.resume now request).2 with
      | .granted => (b.resume now job).2.body? request action none
      | _ => none
    | _ => none
  | .answer job respond =>
    match b.job? job with
    | some { stage := .calling ticket w, action, .. } =>
      (b.answer job respond).2.body? ticket action (some (w, respond))
    | _ => none
  | .cancel _ => none
  | .outside _ => none

/-- The bodies that end in a run, in the order of their ends. -/
def bodies (b : Board) : List Event → List Body
  | [] => []
  | e :: es => (b.body? e).toList ++ bodies (b.step e).1 es

/-- What a body does on a view, with the answer that it got: one that got no answer does
no more than its first half. -/
def Body.show (x : Body) (v : View) : View :=
  match x.action.begin v, x.asked with
  | .ended view _, _ => view
  | .asking w, some (_, respond) => (w.finish (respond w.request) v).1
  | .asking _, none => v

/-- A body does on a view what it did: the same request if any, and the same result. -/
def Body.Agrees (x : Body) (v : View) : Prop :=
  match x.asked with
  | some (w, respond) =>
    x.action.begin v = .asking w ∧ x.result = (w.finish (respond w.request) v).2
  | none => ∃ view, x.action.begin v = .ended view x.result

/-- A body found no note to be saved: the editor had been closed. -/
def Body.FindsNoNote (x : Body) : Prop :=
  x.asked = none ∧ x.result = .error .noNoteOpen

/-- Bodies one after another, each on the view left by the one before. -/
def serial (v : View) (xs : List Body) : View :=
  xs.foldl (fun v x => x.show v) v

/-- Bodies go on where others ended. -/
theorem serial_append (v : View) (xs more : List Body) :
    serial v (xs ++ more) = serial (serial v xs) more := by
  simp [serial]

end Board
end AwardsDesk
