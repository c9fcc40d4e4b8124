import AwardsDesk.Keyed

/-!
# The slot of a gate

A gate has one slot.  The request that owns it is the grant; the others wait in
a queue, first in, first out.  Giving the slot back hands it to the first waiter
that is still there, and a slot handed over that way stays locked.

Main results:

- Theorems {lit}`Slot.line_request`, {lit}`Slot.line_release` and
  {lit}`Slot.line_dequeue`: what the operations do to the line of owner and
  waiters.
- Theorem {lit}`Slot.release_of_ne`: only the owner can give the slot back.
-/

namespace AwardsDesk
namespace Gate

/-- A request in the queue.  A waiter that nobody stands behind any more is not
live, and the slot passes it by. -/
structure Waiter where
  id : Nat
  live : Bool := true
deriving DecidableEq, Repr

/-- The state of a gate: whether it shows as locked, the request that owns the
slot, the queue, and how many requests were made so far. -/
structure Slot where
  locked : Bool := false
  grant : Option Nat := none
  waiters : List Waiter := []
  issued : Nat := 0
deriving DecidableEq, Repr, Inhabited

namespace Slot

/-- The owner of the slot and the waiters behind it, in order. -/
def line (s : Slot) : List Nat :=
  s.grant.toList ++ s.waiters.map Waiter.id

/-- The number of the next request; requests count from one. -/
def nextId (s : Slot) : Nat :=
  s.issued + 1

/-- Whether a new request owns the slot at once. -/
def isFree (s : Slot) : Bool :=
  s.grant.isNone && s.waiters.isEmpty

/-- Whether a request waits in the queue. -/
def isQueued (s : Slot) (id : Nat) : Bool :=
  s.waiters.any (·.id == id)

/-! ## Operations -/

/-- A new request: it owns a free slot without locking it, and queues otherwise. -/
def request (s : Slot) : Slot :=
  if s.isFree then { s with issued := s.nextId, grant := some s.nextId }
  else { s with issued := s.nextId, waiters := s.waiters ++ [{ id := s.nextId }] }

/-- Takes a request out of the queue. -/
def dequeue (s : Slot) (id : Nat) : Slot :=
  { s with waiters := s.waiters.eraseP (·.id == id) }

/-- Gives the ownerless slot to the first live waiter, dropping those before it. -/
def handOver (s : Slot) : Slot :=
  match s.waiters.dropWhile (!·.live) with
  | [] => { s with waiters := [] }
  | w :: rest => { s with locked := true, grant := some w.id, waiters := rest }

/-- The owner gives the slot back; a request that does not own it changes nothing. -/
def release (s : Slot) (id : Nat) : Slot :=
  if s.grant = some id then { s with locked := false, grant := none }.handOver else s

/-- Ends a request that nobody waits for any more: it leaves the queue, or gives
back the slot it was granted meanwhile. -/
def withdraw (s : Slot) (id : Nat) : Slot :=
  if s.isQueued id then s.dequeue id else s.release id

/-- Shows the slot as locked. -/
def lock (s : Slot) : Slot :=
  { s with locked := true }

/-! ## The line -/

/-- A request joins the end of the line. -/
@[simp]
theorem line_request (s : Slot) : s.request.line = s.line ++ [s.nextId] := by
  cases s with
  | mk locked grant waiters issued =>
    cases grant <;> cases waiters <;> simp [request, line, isFree, nextId]

/-- Only the owner can give the slot back. -/
theorem release_of_ne {s : Slot} {id : Nat} (h : s.grant ≠ some id) : s.release id = s := by
  simp [release, h]

/-- When the slot is given back, the first live waiter leads the line. -/
theorem line_release {s : Slot} {id : Nat} (h : s.grant = some id) :
    (s.release id).line = (s.waiters.dropWhile (!·.live)).map Waiter.id := by
  simp only [release, h, if_true, handOver]
  split <;> rename_i hw <;> simp [line, hw]

/-- Leaving the queue keeps the owner. -/
@[simp]
theorem grant_dequeue (s : Slot) (id : Nat) : (s.dequeue id).grant = s.grant :=
  rfl

/-- Leaving the queue keeps the others in order. -/
theorem line_dequeue (s : Slot) (id : Nat) :
    (s.dequeue id).line = s.grant.toList ++ (s.waiters.map Waiter.id).erase id := by
  rw [line, dequeue, map_eraseP_key Waiter.id]

/-- Locking moves nobody. -/
@[simp]
theorem line_lock (s : Slot) : s.lock.line = s.line :=
  rfl

end Slot
end Gate
end AwardsDesk
