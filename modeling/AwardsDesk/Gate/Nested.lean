import AwardsDesk.Gate.Hall
import AwardsDesk.Progress

/-!
# Work under nested gates

A piece of work is done while holding one or more gates, taken one inside the
other.  When the work ends, well or not, the gates are given back from the inside
outwards; when a gate cannot be had, those already held are given back and the
work is never begun.

Main definitions:

- Structure {lit}`Gate.Task`: work under way and the tickets it holds.
- Functions {lit}`Gate.Task.start`, {lit}`Gate.Task.resume` and
  {lit}`Gate.Task.cancel`.
-/

namespace AwardsDesk
namespace Gate

/-- A ticket of one of the gates of a hall. -/
structure Hold where
  gate : Nat
  ticket : Nat
deriving DecidableEq, Repr

/-- The innermost piece of work: how long it takes, and how it ends. -/
structure Work (α : Type) where
  millis : Nat
  outcome : Except String α
deriving Repr

/-- Why work under gates failed. -/
inductive WorkError where
  /-- The work itself failed. -/
  | failed (reason : String)
  /-- A gate could not be had. -/
  | gate (e : Error)
deriving DecidableEq, Repr

namespace Task

/-- What a task is waiting for. -/
inductive Stage where
  /-- Its turn at a gate, with the gates further inside still to be taken. -/
  | queued (gate request : Nat) (inner : List Nat)
  /-- The end of the work at the given time. -/
  | working (wakeAt : Nat)
deriving Repr

end Task

/-- Work under way: the tickets held, innermost first, what it waits for, and
the work at the innermost. -/
structure Task (α : Type) where
  held : List Hold
  stage : Task.Stage
  work : Work α
deriving Repr

namespace Task

variable {α : Type}

/-- How far a task got. -/
abbrev Run (α : Type) := Progress (Task α) (Except WorkError α)

/-- Throws the tickets away, innermost first. -/
def dropAll (h : Hall) : List Hold → Hall
  | [] => h
  | t :: outer => dropAll (h.put t.gate ((h.gate t.gate).drop t.ticket)) outer

/-- Gives the gates back, innermost first, and passes the result on. -/
def close (h : Hall) (result : Except WorkError α) : List Hold → Hall × Except WorkError α
  | [] => (h, result)
  | t :: outer =>
    let g := h.gate t.gate
    match g.unlock t.ticket with
    | .ok g' => close (h.put t.gate (g'.drop t.ticket)) result outer
    | .error e => close (h.put t.gate (g.drop t.ticket)) (.error (.gate e)) outer

/-- Begins the work, all gates being held. -/
def begin (h : Hall) (now : Nat) (held : List Hold) (work : Work α) : Hall × Run α :=
  if work.millis = 0 then
    let (h, result) := close h (work.outcome.mapError .failed) held
    (h, .ended result)
  else (h, .waiting { held, stage := .working (now + work.millis), work })

/-- Gives up because of a gate that could not be had. -/
def fail (h : Hall) (e : Error) (held : List Hold) : Hall × Run α :=
  let (h, result) := close h (.error (.gate e)) held
  (h, .ended result)

/-- Locks a ticket just obtained. -/
def lockTicket (h : Hall) (t : Hold) : Except Error Hall :=
  ((h.gate t.gate).lock t.ticket).map (h.put t.gate)

/-- Takes the gates of the list, outermost first, and begins the work when the
last one is held. -/
def enter (h : Hall) (now : Nat) (held : List Hold) (work : Work α) :
    List Nat → Hall × Run α
  | [] => begin h now held work
  | n :: inner =>
    let (g, admission) := (h.gate n).acquire now
    let h := h.put n g
    match admission with
    | .queued id => (h, .waiting { held, stage := .queued n id inner, work })
    | .granted id =>
      match lockTicket h ⟨n, id⟩ with
      | .ok h => enter h now (⟨n, id⟩ :: held) work inner
      | .error e => fail (dropAll h [⟨n, id⟩]) e held

/-- Starts work under the gates of the list, outermost first. -/
def start (h : Hall) (now : Nat) (gates : List Nat) (work : Work α) : Hall × Run α :=
  enter h now [] work gates

/-- A task goes on as far as it can. -/
def resume (h : Hall) (now : Nat) (t : Task α) : Hall × Run α :=
  match t.stage with
  | .working wakeAt =>
    if wakeAt ≤ now then
      let (h, result) := close h (t.work.outcome.mapError .failed) t.held
      (h, .ended result)
    else (h, .waiting t)
  | .queued n id inner =>
    let (g, turn) := (h.gate n).resume now id
    let h := h.put n g
    match turn with
    | .waiting => (h, .waiting t)
    | .timedOut => fail h g.timeoutError t.held
    | .granted =>
      match lockTicket h ⟨n, id⟩ with
      | .ok h => enter h now (⟨n, id⟩ :: t.held) t.work inner
      | .error e => fail (dropAll h [⟨n, id⟩]) e t.held

/-- A task is given up: its request leaves the queue and its tickets are thrown
away. -/
def cancel (h : Hall) (t : Task α) : Hall :=
  match t.stage with
  | .working _ => dropAll h t.held
  | .queued n id _ => dropAll (h.put n ((h.gate n).cancel id)) t.held

end Task
end Gate
end AwardsDesk
