import AwardsDesk.Board.Action

/-!
# Events in a store

The divisions and awardees of one event.  An awardee who was replaced stays on
record, and the one who came after is linked to whoever already had the award.

Main definitions:

- Function {lit}`Event.awards`: who holds the awards of an event.
- Function {lit}`divisionRows`: divisions in rows, with a column for each gender.
- Function {lit}`Event.answer`: the answer to a request.
-/

namespace AwardsDesk
namespace Store

open Board (Request Error)

/-- One awardee on record. -/
structure Awardee where
  awardeeId : UInt64
  divId : UInt64
  place : UInt32
  name : String
  bib : String
  pickedUp : Bool := false
  notes : Option String := none
  /-- The awardee whom this one replaced. -/
  prevAwardee : Option UInt64 := none
  active : Bool := true
deriving DecidableEq, Repr, Inhabited

/-- The divisions and awardees of an event, in order of entry. -/
structure Event where
  divisions : List Division := []
  awardees : List Awardee := []
deriving DecidableEq, Repr, Inhabited

/-! ## Rows of divisions -/

/-- The genders of divisions in order of first appearance; none given is one more. -/
def genders : List Division → List (Option String)
  | [] => []
  | d :: rest => d.gender :: (genders rest).filter (· ≠ d.gender)

/-- The divisions of one gender. -/
def column (ds : List Division) (gender : Option String) : List Division :=
  ds.filter (·.gender = gender)

/-- Divisions in rows: one column for each gender, the shorter ones filled up. -/
def divisionRows (ds : List Division) : List (List (Option Division)) :=
  let columns := (genders ds).map (column ds)
  let depth := (columns.map List.length).foldl max 0
  (List.range depth).map fun row => columns.map fun col => col[row]?

namespace Event

/-! ## Awards -/

/-- The first awardee of a number. -/
def awardee? (e : Event) (id : UInt64) : Option Awardee :=
  e.awardees.find? (·.awardeeId == id)

/-- The divisions in order of priority; those without come last. -/
def byPriority (e : Event) : List Division :=
  e.divisions.mergeSort fun a b =>
    decide (a.prio.getD 0xFFFFFFFF ≤ b.prio.getD 0xFFFFFFFF)

/-- The active awardees of a division in order of place. -/
def holders (e : Event) (d : Division) : List Awardee :=
  (e.awardees.filter fun a => a.active && a.divId == d.divId).mergeSort fun a b =>
    decide (a.place ≤ b.place)

/-- Whether the awardee whom this one replaced has the award that this one has not. -/
def prevPickedUp (e : Event) (a : Awardee) : Bool :=
  match a.prevAwardee with
  | some prev => !a.pickedUp && ((e.awardee? prev).map Awardee.pickedUp).getD false
  | none => false

/-- The award that an awardee holds in a division. -/
def award (e : Event) (d : Division) (a : Awardee) : Award where
  awardeeId := a.awardeeId
  divId := d.divId
  rsuDivId := d.rsuDivId
  place := a.place
  name := a.name
  bib := a.bib
  pickedUp := a.pickedUp
  prevPickedUp := e.prevPickedUp a
  notes := a.notes

/-- The awards of the event, division by division. -/
def awards (e : Event) : List Award :=
  e.byPriority.flatMap fun d => (e.holders d).map (e.award d)

/-- The awards of the event, and its divisions if they are needed. -/
def snapshot (e : Event) (needDivisions : Bool) : AwardsData where
  divisions := if needDivisions then some (divisionRows e.byPriority) else none
  awards := e.awards

/-! ## Changes -/

/-- Changes the first awardee of a number. -/
def updateAwardee (id : UInt64) (f : Awardee → Awardee) : List Awardee → List Awardee
  | [] => []
  | a :: rest => if a.awardeeId = id then f a :: rest else a :: updateAwardee id f rest

/-- Adds a division. -/
def addDivision (e : Event) (d : Division) : Event :=
  { e with divisions := e.divisions ++ [d] }

/-- Adds an awardee. -/
def addAwardee (e : Event) (a : Awardee) : Event :=
  { e with awardees := e.awardees ++ [a] }

/-- Whether an awardee is the active one in the place of another. -/
def ousts (new old : Awardee) : Bool :=
  old.active && old.divId == new.divId && old.place == new.place

/-- Makes the first of the awardees whom another ousts inactive. -/
def retire (new : Awardee) : List Awardee → List Awardee
  | [] => []
  | a :: rest =>
    if ousts new a then { a with active := false } :: rest else a :: retire new rest

/-- Puts an awardee in the place of the active one.  The new awardee is linked to the
old one if that one already has the award. -/
def replaceAwardee (e : Event) (new : Awardee) : Event :=
  let new := match e.awardees.find? (ousts new) with
    | some old => if old.pickedUp then { new with prevAwardee := some old.awardeeId } else new
    | none => new
  { e with awardees := retire new e.awardees ++ [new] }

/-- Answers a request. -/
def answer (e : Event) : (r : Request) → Event × Except Error r.Answer
  | .fetchAwards _ needDivisions => (e, .ok (e.snapshot needDivisions))
  | .setPickedUp _ id was =>
    match e.awardee? id with
    | none => (e, .ok { pickedUp := false, prevPickedUp := false })
    | some a =>
      ({ e with awardees := updateAwardee id (fun a => { a with pickedUp := !was }) e.awardees },
        .ok { pickedUp := !was, prevPickedUp := was && a.prevAwardee.isSome })
  | .fetchNotes _ id =>
    match e.awardee? id with
    | none => (e, .error (.backend "no awardee"))
    | some a => (e, .ok (a.notes.getD ""))
  | .saveNotes _ id text =>
    match e.awardee? id with
    | none => (e, .error (.backend "no awardee"))
    | some _ =>
      ({ e with awardees := updateAwardee id (fun a => { a with notes := some text }) e.awardees },
        .ok text)

end Event
end Store
end AwardsDesk
