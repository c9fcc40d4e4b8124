import AwardsDesk.Awards.Payload
import AwardsDesk.Board.Cells

/-!
# The view of a board

What a board shows: the event, the cells row by row, and the note editor over one of
them.  The view is laid out from the divisions of an event and then filled in from
its awards.

Main definitions:

- Function {lit}`View.layOut`: the empty cells of the divisions.
- Function {lit}`View.fill`: shows awards in their cells.
-/

namespace AwardsDesk
namespace Board

/-- The note editor, open over a cell. -/
structure NoteEditor where
  cell : CellKey
  text : String
deriving DecidableEq, Repr

/-- Everything a board shows.  A row has a group of keys for each division in it. -/
structure View where
  eventId : Option UInt64 := none
  divisionsRendered : Bool := false
  rows : List (List (List CellKey)) := []
  cells : Cells := []
  noteEditor : Option NoteEditor := none
deriving DecidableEq, Repr, Inhabited

/-- Notes are shown only if there is something in them. -/
def shownNotes (notes : Option String) : Option String :=
  notes.filter (· ≠ "")

end Board

namespace Division

open Board

/-- The places of a division for which there are awards, first place first. -/
def places (d : Division) : List UInt32 :=
  (List.range' 1 d.numAwards.toNat).map UInt32.ofNat

/-- The keys of a division's cells. -/
def keys (d : Division) : List CellKey :=
  d.places.map fun place => ⟨d.rsuDivId, place⟩

/-- The empty cell of a place. -/
def emptyCell (d : Division) (place : UInt32) : Cell where
  divId := d.divId
  header := toString place.toNat ++ ordinalSuffix place.toNat ++ " " ++ d.name

/-- Puts the empty cells of a division among others. -/
def addCells (cells : Cells) (d : Division) : Cells :=
  d.places.foldl (fun cells place => cells.insert ⟨d.rsuDivId, place⟩ (d.emptyCell place)) cells

end Division

namespace Board
namespace View

/-- The cell of a key. -/
def cell? (v : View) (key : CellKey) : Option Cell :=
  v.cells.find? key

/-- The holder of the award in a cell. -/
def awardeeAt (v : View) (key : CellKey) : Option UInt64 :=
  (v.cell? key).bind Cell.awardeeId

/-- The cell that the note editor is open over, and the holder of its award. -/
def noteTarget (v : View) : Option (CellKey × UInt64) :=
  v.noteEditor.bind fun e => (v.awardeeAt e.cell).map fun awardee => (e.cell, awardee)

/-- Lays out the cells of divisions, row by row, all empty. -/
def layOut (v : View) (rows : List (List (Option Division))) : View :=
  let rows := rows.map fun row => row.filterMap id
  { v with
    divisionsRendered := true
    rows := rows.map fun row => row.map Division.keys
    cells := rows.flatten.foldl Division.addCells [] }

/-- Shows an award in its cell; an award without a cell is not shown. -/
def showAward (v : View) (a : Award) : View :=
  { v with
    cells := v.cells.modify ⟨a.rsuDivId, a.place⟩ fun c =>
      { c with
        awardeeId := some a.awardeeId
        bib := some a.bib
        name := some a.name
        pickedUp := a.pickedUp
        prevPickedUp := a.prevPickedUp
        notes := shownNotes a.notes } }

/-- Shows awards in their cells. -/
def fill (v : View) (awards : List Award) : View :=
  awards.foldl showAward v

/-- Shows the state of an award. -/
def showStatus (v : View) (key : CellKey) (s : PickupStatus) : View :=
  { v with
    cells := v.cells.modify key fun c =>
      { c with pickedUp := s.pickedUp, prevPickedUp := s.prevPickedUp } }

/-- Shows notes. -/
def showNotes (v : View) (key : CellKey) (notes : String) : View :=
  { v with cells := v.cells.modify key fun c => { c with notes := shownNotes (some notes) } }

/-- Opens the note editor over a cell. -/
def openEditor (v : View) (key : CellKey) (text : String) : View :=
  { v with noteEditor := some { cell := key, text } }

/-- Closes the note editor. -/
def closeEditor (v : View) : View :=
  { v with noteEditor := none }

end View
end Board
end AwardsDesk
