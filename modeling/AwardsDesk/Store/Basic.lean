import AwardsDesk.Store.Event

/-!
# A store of events

A store keeps events and answers requests about them.  A request is counted when it
begins, and looked into when it ends; one that is given up in between stays counted
as under way.

Main definitions:

- Functions {lit}`Store.begin` and {lit}`Store.finish`: a request begins and ends.
-/

namespace AwardsDesk

/-- A store: its events, the failure that the next request to end will meet, and the
count of requests made, under way, and under way at most. -/
structure Store where
  events : List (UInt64 × Store.Event) := []
  failNext : Option String := none
  calls : Nat := 0
  inFlight : Nat := 0
  maxInFlight : Nat := 0
deriving Repr, Inhabited

namespace Store

open Board (Request Error)

/-! ## Events -/

/-- The event of a number. -/
def event? (s : Store) (id : UInt64) : Option Event :=
  s.events.lookup id

/-- Changes the event of a number among others. -/
def updateEvent (id : UInt64) (f : Event → Event) :
    List (UInt64 × Event) → List (UInt64 × Event)
  | [] => []
  | (k, e) :: rest => if k = id then (k, f e) :: rest else (k, e) :: updateEvent id f rest

/-- Changes the event of a number; one that is not there yet is changed from empty. -/
def changeEvent (s : Store) (id : UInt64) (f : Event → Event) : Store :=
  match s.event? id with
  | some _ => { s with events := updateEvent id f s.events }
  | none => { s with events := s.events ++ [(id, f {})] }

/-- Adds a division to an event. -/
def addDivision (s : Store) (id : UInt64) (d : Division) : Store :=
  s.changeEvent id (·.addDivision d)

/-- Adds an awardee to an event. -/
def addAwardee (s : Store) (id : UInt64) (a : Awardee) : Store :=
  s.changeEvent id (·.addAwardee a)

/-- Puts an awardee of an event in the place of the active one. -/
def replaceAwardee (s : Store) (id : UInt64) (a : Awardee) : Store :=
  s.changeEvent id (·.replaceAwardee a)

/-- The awardee of a number in an event. -/
def awardee? (s : Store) (event id : UInt64) : Option Awardee :=
  (s.event? event).bind (·.awardee? id)

/-! ## Requests -/

/-- The event that a request is about. -/
def requestEvent : Request → UInt64
  | .fetchAwards event _ => event
  | .setPickedUp event _ _ => event
  | .fetchNotes event _ => event
  | .saveNotes event _ _ => event

/-- The next request to end will fail. -/
def armFailure (s : Store) (reason : String) : Store :=
  { s with failNext := some reason }

/-- A request begins. -/
def begin (s : Store) : Store :=
  { s with
    calls := s.calls + 1
    inFlight := s.inFlight + 1
    maxInFlight := max s.maxInFlight (s.inFlight + 1) }

/-- A request ends.  A failure that was armed comes before anything else. -/
def finish (s : Store) (r : Request) : Store × Except Error r.Answer :=
  let s := { s with inFlight := s.inFlight - 1 }
  match s.failNext with
  | some reason => ({ s with failNext := none }, .error (.backend reason))
  | none =>
    match s.event? (requestEvent r) with
    | none => (s, .error (.backend "event not found"))
    | some e =>
      let (e, result) := e.answer r
      ({ s with events := updateEvent (requestEvent r) (fun _ => e) s.events }, result)

end Store
end AwardsDesk
