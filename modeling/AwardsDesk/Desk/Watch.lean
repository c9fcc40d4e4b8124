import AwardsDesk.Desk.Agenda
import AwardsDesk.Desk.Basic
import AwardsDesk.Desk.Poller

/-!
# A desk with pollers

The pollers of a desk run by themselves.  The ticker of each and every cycle is a task
of its own.  A task is woken by its alarm; a ticker also when it is told to stop, and a
cycle also when it is started or is granted the gate.  Tasks run in the order in which
they were woken, each as far as it can.

Main definitions:

- Function {lit}`Watch.run`: tickers and cycles go on as far as they can.
-/

namespace AwardsDesk

namespace Watch

/-- A cycle of a poller under way.  One that has not run yet has no errand. -/
structure Cycle where
  id : Nat
  poller : Nat
  errand : Option Desk.Errand := none
deriving DecidableEq, Repr

/-- What runs by itself, by number. -/
inductive Task where
  | ticker (poller : Nat)
  | cycle (id : Nat)
deriving DecidableEq, Repr

end Watch

/-- A desk, the pollers that were started, their cycles under way, the agenda of
tickers and cycles, and how many cycles were started so far. -/
structure Watch where
  desk : Desk
  pollers : List Poller := []
  cycles : List Watch.Cycle := []
  agenda : Agenda Watch.Task := {}
  spawned : Nat := 0
deriving Repr, Inhabited

namespace Watch

/-- The poller of a number. -/
def poller (w : Watch) (n : Nat) : Poller :=
  w.pollers.getD n default

/-- Puts a poller in the place of the one of a number. -/
def putPoller (w : Watch) (n : Nat) (p : Poller) : Watch :=
  { w with pollers := w.pollers.set n p }

/-- Wakes a ticker or a cycle. -/
def wake (w : Watch) (t : Task) : Watch :=
  { w with agenda := w.agenda.wake t }

/-- Starts a poller and tells its number. -/
def addPoller (w : Watch) (period : Nat) : Watch × Nat :=
  let p : Poller := { period }
  let n := w.pollers.length
  ({ w with pollers := w.pollers ++ [p] }.wake (.ticker n), n)

/-- Tells a poller to stop, unless it was told before. -/
def signal (w : Watch) (n : Nat) : Watch :=
  if (w.poller n).told then w else (w.putPoller n (w.poller n).signal).wake (.ticker n)

/-- Whether a cycle is under way. -/
def isUnderWay (w : Watch) (id : Nat) : Bool :=
  w.cycles.any (·.id == id)

/-- Whether a poller has stopped and the cycles that it kept have ended. -/
def isOver (w : Watch) (n : Nat) : Bool :=
  (w.poller n).ticker == .stopped && !(w.poller n).kept.any w.isUnderWay

/-- Wakes the cycle that waited for the gate and has been granted it, if there is one. -/
def wakeGranted (w : Watch) : Watch :=
  match w.desk.grantedJob? with
  | none => w
  | some job =>
    match w.cycles.find? (·.errand.any (·.job == job)) with
    | none => w
    | some c => w.wake (.cycle c.id)

/-! ## Tickers -/

/-- A tick of a poller starts a cycle. -/
def launch (w : Watch) (n : Nat) : Watch :=
  let c : Cycle := { id := w.spawned, poller := n }
  let w := w.putPoller n ((w.poller n).launch w.isUnderWay c.id)
  { w with cycles := w.cycles ++ [c], spawned := w.spawned + 1 }.wake (.cycle c.id)

/-- A number of ticks of a poller start cycles. -/
def spawn (w : Watch) (n : Nat) : Nat → Watch
  | 0 => w
  | k + 1 => spawn (w.launch n) n k

/-- The ticker of a poller runs. -/
def runTicker (w : Watch) (now n : Nat) : Watch :=
  match w.pollers[n]? with
  | none => w
  | some p =>
    let (p, count) := p.tick now
    let w := (w.putPoller n p).spawn n count
    { w with agenda := w.agenda.resetAlarm (.ticker n) (p.nextTick now) }

/-! ## Cycles -/

/-- The cycle of a number. -/
def cycle? (w : Watch) (id : Nat) : Option Cycle :=
  w.cycles.find? (·.id == id)

/-- What a cycle does at a desk: it starts a refresh, which then goes on. -/
def Cycle.go (c : Cycle) (d : Desk) (now : Nat) : Desk × Desk.Run :=
  match c.errand with
  | none => d.start now .refresh
  | some e => d.resume now e

/-- A cycle goes on as far as it can. -/
def runCycle (w : Watch) (now : Nat) (c : Cycle) : Watch :=
  let (desk, progress) := c.go w.desk now
  match progress with
  | .waiting errand =>
    { w with
      desk
      cycles := w.cycles.map fun d => if d.id = c.id then { d with errand := some errand } else d
      agenda := w.agenda.resetAlarm (.cycle c.id) (desk.deadline? errand) }
  | .ended result =>
    { w with
      desk
      cycles := w.cycles.filter (·.id ≠ c.id)
      agenda := w.agenda.clearAlarm (.cycle c.id) }.putPoller c.poller
        ((w.poller c.poller).record result)

/-! ## Running -/

/-- A ticker or a cycle runs. -/
def runTask (w : Watch) (now : Nat) : Task → Watch
  | .ticker n => w.runTicker now n
  | .cycle id =>
    match w.cycle? id with
    | none => w
    | some c => (w.runCycle now c).wakeGranted

/-- The tasks that are awake run, and those that they wake, for a number of turns. -/
def runTurns (now : Nat) : Nat → Watch → Watch
  | 0, w => w
  | turns + 1, w =>
    match w.agenda.woken with
    | [] => w
    | t :: rest => runTurns now turns ({ w with agenda.woken := rest }.runTask now t)

/-- A number of turns that is enough at the given time: a ticker runs once, and a cycle
twice at most, when it begins or its alarm rings and when it is granted the gate. -/
def turns (w : Watch) (now : Nat) : Nat :=
  let ticks := w.pollers.foldl (fun ticks p => ticks + p.ticksPending now) 0
  w.pollers.length + 2 * (w.cycles.length + ticks)

/-- Tickers and cycles go on as far as they can: first those that are awake already, then
those whose alarms ring. -/
def run (w : Watch) (now : Nat) : Watch :=
  runTurns now (w.turns now) { w with agenda := w.agenda.ring now }

end Watch
end AwardsDesk
