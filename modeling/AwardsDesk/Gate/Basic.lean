import AwardsDesk.Gate.Error
import AwardsDesk.Gate.Slot

/-!
# Gates and tickets

A gate lets one sequence of steps at a time touch what it protects.  A caller
asks for the gate and gets a ticket, at once or when its turn in the queue comes;
it locks the ticket, does its work and unlocks it.  A wait longer than the gate's
timeout ends with an error.

The gate keeps what callers hold of it: the requests still waiting, each with
the time at which it gives up, and the tickets not yet thrown away.  Times are
milliseconds on a clock that never goes back.

Main definitions:

- Functions {lit}`Gate.acquire`, {lit}`Gate.resume` and {lit}`Gate.cancel`: a
  request is made, goes on, or is given up.
- Functions {lit}`Gate.lock`, {lit}`Gate.unlock` and {lit}`Gate.drop`: the life
  of a ticket.
-/

namespace AwardsDesk
namespace Gate

/-- How far a ticket has been used. -/
inductive Phase where
  | granted
  | locked
  | released
deriving DecidableEq, Repr

/-- A ticket, by the number of the request that got it. -/
structure Ticket where
  id : Nat
  phase : Phase := .granted
deriving DecidableEq, Repr

/-- A request that has to wait, and the time at which it gives up. -/
structure Waiting where
  id : Nat
  deadline : Nat
deriving DecidableEq, Repr

/-- What a gate shows: held from the moment a ticket is locked or a waiter gets
the slot. -/
inductive Status where
  | free
  | held
deriving DecidableEq, Repr

end Gate

/-- A named gate: its settings, its slot, and what callers hold of it. -/
structure Gate where
  name : String
  options : Gate.Options
  slot : Gate.Slot := {}
  waiting : List Gate.Waiting := []
  tickets : List Gate.Ticket := []
deriving DecidableEq, Repr, Inhabited

namespace Gate

/-- A new gate, unless the options are unusable. -/
def make (name : String) (options : Options) : Except Error Gate :=
  options.validate.map fun _ => { name, options }

/-! ## What a gate shows -/

/-- Whether the gate is free or held. -/
def status (g : Gate) : Status :=
  if g.slot.locked then .held else .free

/-- Whether the gate is held. -/
def isLocked (g : Gate) : Bool :=
  g.slot.locked

/-- The number of requests in the queue. -/
def queued (g : Gate) : Nat :=
  g.slot.waiters.length

/-- The phase of a ticket; a ticket thrown away is released. -/
def phase (g : Gate) (id : Nat) : Phase :=
  ((g.tickets.find? (·.id == id)).map Ticket.phase).getD .released

/-! ## Requests -/

/-- The answer to a new request. -/
inductive Admission where
  /-- The request got the slot and is a ticket now. -/
  | granted (id : Nat)
  /-- The request waits in the queue. -/
  | queued (id : Nat)
deriving DecidableEq, Repr

/-- A new request at the given time. -/
def acquire (g : Gate) (now : Nat) : Gate × Admission :=
  let id := g.slot.nextId
  if g.slot.isFree then
    ({ g with slot := g.slot.request, tickets := g.tickets ++ [{ id }] }, .granted id)
  else
    ({ g with
        slot := g.slot.request
        waiting := g.waiting ++ [{ id, deadline := now + g.options.timeoutMs.toNat }] },
      .queued id)

/-- What becomes of a waiting request that is looked at. -/
inductive Turn where
  /-- It got the slot and is a ticket now. -/
  | granted
  /-- It waited too long and has left the queue. -/
  | timedOut
  /-- It goes on waiting. -/
  | waiting
deriving DecidableEq, Repr

/-- The error of a request that waited too long. -/
def timeoutError (g : Gate) : Error :=
  .timeout g.name g.options.timeout

/-- Stops keeping a waiting request. -/
def forget (g : Gate) (id : Nat) : Gate :=
  { g with waiting := g.waiting.eraseP (·.id == id) }

/-- A waiting request goes on.  The slot is looked at before the clock, so a
request granted in time or late is a ticket. -/
def resume (g : Gate) (now : Nat) (id : Nat) : Gate × Turn :=
  match g.waiting.find? (·.id == id) with
  | none => (g, .waiting)
  | some w =>
    if g.slot.grant = some id then
      ({ g.forget id with tickets := g.tickets ++ [{ id }] }, .granted)
    else if w.deadline ≤ now then
      ({ g.forget id with slot := g.slot.dequeue id }, .timedOut)
    else (g, .waiting)

/-- A waiting request is given up: it leaves the queue, or passes on the slot it
got without having seen it. -/
def cancel (g : Gate) (id : Nat) : Gate :=
  if g.waiting.any (·.id == id) then
    { g.forget id with slot := g.slot.withdraw id }
  else g

/-! ## Tickets -/

/-- Notes the phase of a ticket. -/
def setPhase (g : Gate) (id : Nat) (phase : Phase) : Gate :=
  { g with tickets := g.tickets.map fun t => if t.id = id then { t with phase } else t }

/-- Locks a ticket: the gate is held from now on.  Misuse of the ticket is
noticed before the slot is looked at. -/
def lock (g : Gate) (id : Nat) : Except Error Gate :=
  match g.phase id with
  | .locked => .error (.invalidTicket g.name .alreadyLocked)
  | .released => .error (.invalidTicket g.name .alreadyReleased)
  | .granted =>
    if g.slot.grant = some id then .ok ({ g with slot := g.slot.lock }.setPhase id .locked)
    else .error (.invalidTicket g.name .notCurrent)

/-- Unlocks a ticket and hands the slot to the next in line. -/
def unlock (g : Gate) (id : Nat) : Except Error Gate :=
  match g.phase id with
  | .granted => .error (.invalidTicket g.name .notLocked)
  | .released => .error (.invalidTicket g.name .alreadyReleased)
  | .locked => .ok ({ g with slot := g.slot.release id }.setPhase id .released)

/-- Throws a ticket away, and gives back its slot if that was not done yet. -/
def drop (g : Gate) (id : Nat) : Gate :=
  { g with
    slot := if g.phase id = .released then g.slot else g.slot.release id
    tickets := g.tickets.eraseP (·.id == id) }

end Gate
end AwardsDesk
