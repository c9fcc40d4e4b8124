import AwardsDesk.Gate.Basic

/-!
# Runs of a gate

What callers do to a gate, one event after another.  An event names the request or the
ticket that it is about by its number, and a run is any list of events: callers may come
at any time, let a request go on at any time, give it up, and use their tickets in any
order.  What no caller has in hand is not touched by events that name it.

Main definitions:

- Inductive type {lit}`Gate.Event` and function {lit}`Gate.step`: one event, with what
  the caller is told.
- Functions {lit}`Gate.run` and {lit}`Gate.trace`: a run, and what was told in it.
-/

namespace AwardsDesk

/-- What succeeds has succeeded in its first part. -/
theorem exists_of_bind_ok {ε α β : Type} {x : Except ε α} {f : α → Except ε β} {b : β}
    (h : x >>= f = .ok b) : ∃ a, x = .ok a ∧ f a = .ok b := by
  cases x with
  | error e => simp [bind, Except.bind] at h
  | ok a => exact ⟨a, rfl, h⟩

namespace Gate

/-- A gate is made with usable options, and nobody has used it yet. -/
theorem usable_of_make {name : String} {options : Options} {g : Gate}
    (h : make name options = .ok g) : options.Usable ∧ g = { name, options } := by
  unfold make at h
  cases hvalid : options.validate with
  | error e => simp [hvalid, Except.map] at h
  | ok u =>
      refine ⟨options.validate_eq_ok_iff.1 hvalid, ?_⟩
      simpa [hvalid, Except.map, eq_comm] using h

/-! ## Events -/

/-- Something that a caller does. -/
inductive Event where
  /-- The gate is asked for. -/
  | acquire (now : Nat)
  /-- A waiting request goes on. -/
  | resume (now id : Nat)
  /-- A waiting request is given up. -/
  | cancel (id : Nat)
  | lock (id : Nat)
  | unlock (id : Nat)
  /-- A ticket is thrown away, or released by hand. -/
  | drop (id : Nat)
deriving DecidableEq, Repr

/-- What a caller is told. -/
inductive Reply where
  | admitted (a : Admission)
  | turned (t : Turn)
  | done
  | refused (e : Error)
  /-- There is no such request or ticket any more. -/
  | unknown
deriving DecidableEq, Repr

/-- Whether a request of this number waits, or has been granted the slot unseen. -/
def isPending (g : Gate) (id : Nat) : Bool :=
  g.waiting.any (·.id == id)

/-- Whether a ticket of this number is kept. -/
def hasTicket (g : Gate) (id : Nat) : Bool :=
  g.tickets.any (·.id == id)

/-- What a ticket's use comes to: a refused one leaves the gate as it was. -/
def settle (g : Gate) : Except Error Gate → Gate × Reply
  | .ok g' => (g', .done)
  | .error e => (g, .refused e)

/-- One event. -/
def step (g : Gate) : Event → Gate × Reply
  | .acquire now => ((g.acquire now).1, .admitted (g.acquire now).2)
  | .resume now id => ((g.resume now id).1, .turned (g.resume now id).2)
  | .cancel id => (g.cancel id, if g.isPending id then .done else .unknown)
  | .lock id => g.settle (g.lock id)
  | .unlock id => g.settle (g.unlock id)
  | .drop id => (g.drop id, if g.hasTicket id then .done else .unknown)

/-! ## Runs -/

/-- Event after event. -/
def run (g : Gate) (es : List Event) : Gate :=
  es.foldl (fun g e => (g.step e).1) g

/-- The events of a run, each with what was told. -/
def trace (g : Gate) : List Event → List (Event × Reply)
  | [] => []
  | e :: es => (e, (g.step e).2) :: trace (g.step e).1 es

/-- A run from an event on. -/
@[simp]
theorem run_cons (g : Gate) (e : Event) (es : List Event) :
    g.run (e :: es) = (g.step e).1.run es :=
  rfl

/-- Nothing happens in an empty run. -/
@[simp]
theorem run_nil (g : Gate) : g.run [] = g :=
  rfl

/-- A run goes on where another one ended. -/
theorem run_append (g : Gate) (es more : List Event) :
    g.run (es ++ more) = (g.run es).run more := by
  simp [run]

/-- What is told in a run that goes on is told in its parts. -/
theorem trace_append (g : Gate) (es more : List Event) :
    g.trace (es ++ more) = g.trace es ++ (g.run es).trace more := by
  induction es generalizing g with
  | nil => rfl
  | cons e es ih => rw [List.cons_append, trace, trace, ih, run_cons, List.cons_append]

/-- What every event keeps, every run keeps. -/
theorem run_induction {P : Gate → Prop} (hstep : ∀ g e, P g → P (g.step e).1) {g : Gate}
    (hg : P g) (es : List Event) : P (g.run es) := by
  induction es generalizing g with
  | nil => exact hg
  | cons e es ih => exact ih (hstep g e hg)

/-! ## Numbers -/

/-- The number of the request or ticket that an event is about. -/
def subject (g : Gate) : Event → Nat
  | .acquire _ => g.slot.nextId
  | .resume _ id | .cancel id | .lock id | .unlock id | .drop id => id

/-- The request or ticket that an event names. -/
def Event.number? : Event → Option Nat
  | .acquire _ => none
  | .resume _ id | .cancel id | .lock id | .unlock id | .drop id => some id

end Gate
end AwardsDesk
