import AwardsDesk.Board.Action

/-!
# Pollers

A poller refreshes a board again and again.  Its ticker ticks when it first runs and
then once in every period, and each tick starts a cycle of its own, so a slow cycle
does not hold up the next tick; ticks that were missed are made up for.  A poller that
was told to stop does not tick any more, while the cycles under way go on.  The ticker
keeps a list of the cycles that the end of the poller has to wait for, from which it
strikes, at every tick, those that have ended.

A ticker that finds both that it was told to stop and that a tick is due may take either
first.  Here it is assumed to take the stop, so it makes none of the ticks that fell due
since it was told.  The accounts of a poller are proved for a ticker that takes the ticks
first as well, which is {lit}`Watch.Deed.tick`.

Main definitions:

- Function {lit}`Poller.tick`: the ticker runs.
- Function {lit}`Poller.launch`: a tick starts a cycle.
- Function {lit}`Poller.Stats.record`: a cycle ends.

Main results:

- Theorem {lit}`Poller.tick_of_nextTick`: a ticker that runs makes all ticks that are due.
-/

namespace AwardsDesk
namespace Poller

/-- How the cycles of a poller went. -/
structure Stats where
  started : Nat := 0
  succeeded : Nat := 0
  /-- Cycles that failed for another reason than a timeout of the gate. -/
  failed : Nat := 0
  timedOut : Nat := 0
deriving DecidableEq, Repr, Inhabited

/-- Counts a cycle that has ended. -/
def Stats.record (s : Stats) : Except Board.Error Board.Outcome → Stats
  | .ok _ => { s with succeeded := s.succeeded + 1 }
  | .error e =>
    if e.isTimeout then { s with timedOut := s.timedOut + 1 }
    else { s with failed := s.failed + 1 }

/-- What a ticker does. -/
inductive Ticker where
  /-- It has not run yet. -/
  | fresh
  /-- It will tick at this time. -/
  | due (next : Nat)
  /-- It has seen that the poller was told to stop. -/
  | stopped
deriving DecidableEq, Repr, Inhabited

end Poller

/-- A poller: its period in milliseconds, its ticker, whether it was told to stop, the
count of its cycles, and the numbers of the cycles that its end has to wait for. -/
structure Poller where
  period : Nat
  ticker : Poller.Ticker := .fresh
  told : Bool := false
  stats : Poller.Stats := {}
  kept : List Nat := []
deriving DecidableEq, Repr, Inhabited

namespace Poller

/-- Tells a poller to stop. -/
def signal (p : Poller) : Poller :=
  { p with told := true }

/-- The time of the next tick; a ticker that has not run yet ticks at once. -/
def nextTick (p : Poller) (now : Nat) : Option Nat :=
  match p.ticker with
  | .fresh => some now
  | .due next => some next
  | .stopped => none

/-- The number of ticks due at the given time, from the next one on. -/
def ticksDue (period next now : Nat) : Nat :=
  if now < next then 0 else (now - next) / period + 1

/-- The number of ticks that the ticker makes if it runs at the given time. -/
def ticksPending (p : Poller) (now : Nat) : Nat :=
  match p.nextTick now with
  | none => 0
  | some next => ticksDue p.period next now

/-- The ticker runs: it stops if it was told to, also when ticks are due, and otherwise makes
all ticks that are due.  The number of cycles to be started is told. -/
def tick (p : Poller) (now : Nat) : Poller × Nat :=
  match p.nextTick now with
  | none => (p, 0)
  | some next =>
    if p.told then ({ p with ticker := .stopped }, 0)
    else
      let n := ticksDue p.period next now
      ({ p with ticker := .due (next + n * p.period) }, n)

/-- A tick counts the cycle of a number and keeps it, and strikes those kept before that
are not under way any more. -/
def launch (p : Poller) (underWay : Nat → Bool) (id : Nat) : Poller :=
  { p with
    stats := { p.stats with started := p.stats.started + 1 }
    kept := p.kept.filter underWay ++ [id] }

/-- Counts a cycle that has ended. -/
def record (p : Poller) (result : Except Board.Error Board.Outcome) : Poller :=
  { p with stats := p.stats.record result }

/-- A ticker that runs makes all ticks that are due, and the next one is due a period
after the last of them. -/
theorem tick_of_nextTick {p : Poller} {now next : Nat} (ht : p.told = false)
    (hn : p.nextTick now = some next) :
    p.tick now =
      ({ p with ticker := .due (next + ticksDue p.period next now * p.period) },
        ticksDue p.period next now) := by
  simp [tick, hn, ht]

end Poller
end AwardsDesk
