import AwardsDesk.Gate.Describe
import AwardsDesk.Gate.Manager
import AwardsDesk.Gate.Nested
import AwardsDesk.Session.Basic

/-!
# Sessions with gates

Gates are made by hand or by a manager and known by handles.  A request that is
granted brings a ticket, kept under the name of the call that asked for it.  Work
under nested gates brings the value that it returns.
-/

namespace AwardsDesk
namespace GateSession

/-- The gates of a session, the manager, the handles on gates and the kept tickets. -/
structure World where
  hall : Gate.Hall := {}
  manager : Gate.Manager := {}
  handles : List (String × Nat) := []
  tickets : List (String × Gate.Hold) := []

/-- A call under way: a request for a ticket, or work under gates. -/
inductive Call (α : Type) where
  | request (hold : Gate.Hold)
  | task (t : Gate.Task α)

/-- What a step or a call brings. -/
inductive Outcome (α : Type) where
  | nothing
  /-- A handle on a gate of this name and timeout. -/
  | handle (name : String) (timeout : Span)
  | names (names : List String)
  | answer (yes : Bool)
  | text (description : String)
  /-- A ticket that has just been granted by a gate of this name. -/
  | ticket (hold : Gate.Hold) (gate : String)
  /-- What there is to say of a ticket. -/
  | ticketState (gate : String) (locked : Bool) (description : String)
  /-- The value of work that is done. -/
  | value (v : α)
  | failed (reason : String)
  | error (e : Gate.Error)

/-- A step of a session with gates. -/
inductive Command (α : Type) where
  | make (handle name : String) (options : Gate.Options)
  | register (handle name : String) (options : Gate.Options)
  | get (handle name : String)
  | names
  | share (handle gate : String)
  | sameGate (a b : String)
  | describeGate (gate : String)
  | acquire (name gate : String)
  | withLock (name gate : String) (nested : List String) (work : Gate.Work α)
  | lock (ticket : String)
  | unlock (ticket : String)
  | ticketState (ticket : String)
  | drop (ticket : String)

namespace World

variable {α : Type}

/-- The gate behind a handle. -/
def gate? (w : World) (handle : String) : Except Refusal Nat :=
  match w.handles.lookup handle with
  | some n => .ok n
  | none => .error .unknownGate

/-- The gates behind several handles. -/
def gates? (w : World) : List String → Except Refusal (List Nat)
  | [] => .ok []
  | handle :: rest => do
    let n ← w.gate? handle
    let ns ← w.gates? rest
    return n :: ns

/-- The ticket kept under a name. -/
def ticket? (w : World) (name : String) : Except Refusal Gate.Hold :=
  match w.tickets.lookup name with
  | some t => .ok t
  | none => .error .unknownTicket

/-- A handle now stands for the gate of a number. -/
def bindHandle (w : World) (handle : String) (n : Nat) : World :=
  { w with handles := (handle, n) :: w.handles.eraseP (·.1 == handle) }

/-- What is said when a handle was bound. -/
def handleOutcome (w : World) (n : Nat) : Outcome α :=
  .handle (w.hall.gate n).name (w.hall.gate n).options.timeout

/-- Binds a handle to a gate of the manager. -/
def bindManaged (w : World) (handle : String) :
    Except Gate.Error (Gate.Manager × Gate.Hall × Nat) → World × Outcome α
  | .ok (manager, hall, n) =>
    let w := { w with manager, hall }.bindHandle handle n
    (w, w.handleOutcome n)
  | .error e => (w, .error e)

/-- Changes the gate of a ticket, unless that is an error. -/
def changeTicket (w : World) (t : Gate.Hold)
    (change : Gate → Nat → Except Gate.Error Gate) : World × Outcome α :=
  match change (w.hall.gate t.gate) t.ticket with
  | .ok g => ({ w with hall := w.hall.put t.gate g }, .nothing)
  | .error e => (w, .error e)

/-- Tells what became of a task. -/
def taskProgress (w : World) :
    Gate.Hall × Gate.Task.Run α → World × Progress (Call α) (Outcome α)
  | (hall, .waiting t) => ({ w with hall }, .waiting (.task t))
  | (hall, .ended (.ok v)) => ({ w with hall }, .ended (.value v))
  | (hall, .ended (.error (.failed reason))) => ({ w with hall }, .ended (.failed reason))
  | (hall, .ended (.error (.gate e))) => ({ w with hall }, .ended (.error e))

/-- A step is taken. -/
def act (now : Nat) (w : World) :
    Command α → Except Refusal (World × Progress (Call α) (Outcome α))
  | .make handle name options =>
    match Gate.make name options with
    | .error e => .ok (w, .ended (.error e))
    | .ok g =>
      let (hall, n) := w.hall.add g
      let w := { w with hall }.bindHandle handle n
      .ok (w, .ended (w.handleOutcome n))
  | .register handle name options =>
    let (w, outcome) := w.bindManaged handle (w.manager.register w.hall name options)
    .ok (w, .ended outcome)
  | .get handle name =>
    let (w, outcome) := w.bindManaged handle (w.manager.get w.hall name)
    .ok (w, .ended outcome)
  | .names => .ok (w, .ended (.names w.manager.names))
  | .share handle gate => do
    let n ← w.gate? gate
    let w := w.bindHandle handle n
    return (w, .ended (w.handleOutcome n))
  | .sameGate a b => do
    let m ← w.gate? a
    let n ← w.gate? b
    return (w, .ended (.answer (m == n)))
  | .describeGate gate => do
    let n ← w.gate? gate
    return (w, .ended (.text (w.hall.gate n).describe))
  | .acquire _ gate => do
    let n ← w.gate? gate
    let (g, admission) := (w.hall.gate n).acquire now
    let w := { w with hall := w.hall.put n g }
    match admission with
    | .granted id => return (w, .ended (.ticket ⟨n, id⟩ g.name))
    | .queued id => return (w, .waiting (.request ⟨n, id⟩))
  | .withLock _ gate nested work => do
    let n ← w.gate? gate
    let inner ← w.gates? nested
    return w.taskProgress (Gate.Task.start w.hall now (n :: inner) work)
  | .lock ticket => do
    let t ← w.ticket? ticket
    let (w, outcome) := w.changeTicket t Gate.lock
    return (w, .ended outcome)
  | .unlock ticket => do
    let t ← w.ticket? ticket
    let (w, outcome) := w.changeTicket t Gate.unlock
    return (w, .ended outcome)
  | .ticketState ticket => do
    let t ← w.ticket? ticket
    let g := w.hall.gate t.gate
    return (w, .ended (.ticketState g.name (decide (g.phase t.ticket = .locked))
      (g.describeTicket t.ticket)))
  | .drop ticket => do
    let t ← w.ticket? ticket
    let g := (w.hall.gate t.gate).drop t.ticket
    return ({ w with
        hall := w.hall.put t.gate g
        tickets := w.tickets.eraseP (·.1 == ticket) }, .ended .nothing)

/-- A call goes on as far as it can. -/
def resume (now : Nat) (w : World) : Call α → World × Progress (Call α) (Outcome α)
  | .task t => w.taskProgress (t.resume w.hall now)
  | .request t =>
    let (g, turn) := (w.hall.gate t.gate).resume now t.ticket
    let w := { w with hall := w.hall.put t.gate g }
    match turn with
    | .granted => (w, .ended (.ticket t g.name))
    | .timedOut => (w, .ended (.error g.timeoutError))
    | .waiting => (w, .waiting (.request t))

/-- A call is given up. -/
def abandon (w : World) : Call α → World
  | .task t => { w with hall := t.cancel w.hall }
  | .request t => { w with hall := w.hall.put t.gate ((w.hall.gate t.gate).cancel t.ticket) }

/-- A ticket is kept under the name of the call that brought it. -/
def keep (w : World) (name : String) : Outcome α → World
  | .ticket t _ => { w with tickets := (name, t) :: w.tickets }
  | _ => w

end World

/-- The name under which a step starts a call. -/
def Command.callName? {α : Type} : Command α → Option String
  | .acquire name _ => some name
  | .withLock name _ _ _ => some name
  | _ => none

instance {α : Type} : Callable World (Call α) (Command α) (Outcome α) where
  background _ w := w
  callName? := Command.callName?
  keeps w name := w.tickets.any (·.1 == name)
  act := World.act
  resume := World.resume
  abandon := World.abandon
  keep := World.keep

end GateSession
end AwardsDesk
