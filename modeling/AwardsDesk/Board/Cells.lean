import AwardsDesk.Awards.CellKey

/-!
# Cells

The cells of a board, in increasing order of their keys, each key once.

Main results:

- Theorems {lit}`Cells.find?_insert_self`, {lit}`Cells.find?_insert_ne` and
  {lit}`Cells.find?_modify`: what is found after a change.
-/

namespace AwardsDesk
namespace Board

/-- What a cell shows: the division, a header, and the holder of the award if there is
one. -/
structure Cell where
  divId : UInt64
  header : String
  awardeeId : Option UInt64 := none
  bib : Option String := none
  name : Option String := none
  pickedUp : Bool := false
  prevPickedUp : Bool := false
  notes : Option String := none
deriving DecidableEq, Repr, Inhabited

/-- Cells by key. -/
abbrev Cells := List (CellKey × Cell)

namespace Cells

/-- The cell of a key. -/
def find? : Cells → CellKey → Option Cell
  | [], _ => none
  | (k, c) :: rest, key => if k = key then some c else find? rest key

/-- Puts a cell in its place, or in the place of the one of its key. -/
def insert (key : CellKey) (cell : Cell) : Cells → Cells
  | [] => [(key, cell)]
  | (k, c) :: rest =>
    if key = k then (key, cell) :: rest
    else if key.before k then (key, cell) :: (k, c) :: rest
    else (k, c) :: insert key cell rest

/-- Changes the cell of a key, if there is one. -/
def modify (key : CellKey) (f : Cell → Cell) : Cells → Cells
  | [] => []
  | (k, c) :: rest => if k = key then (k, f c) :: rest else (k, c) :: modify key f rest

/-- A cell put in place is found. -/
@[simp]
theorem find?_insert_self (cells : Cells) (key : CellKey) (cell : Cell) :
    find? (insert key cell cells) key = some cell := by
  induction cells with
  | nil => simp [insert, find?]
  | cons head rest ih =>
    obtain ⟨k, c⟩ := head
    by_cases h : key = k
    · simp [insert, find?, h]
    · by_cases hb : key.before k = true
      · simp [insert, find?, h, hb]
      · simp [insert, find?, h, hb, Ne.symm h, ih]

/-- The other cells are found as before. -/
@[simp]
theorem find?_insert_ne {key other : CellKey} (hne : key ≠ other) (cells : Cells) (cell : Cell) :
    find? (insert key cell cells) other = find? cells other := by
  induction cells with
  | nil => simp [insert, find?, hne]
  | cons head rest ih =>
    obtain ⟨k, c⟩ := head
    by_cases h : key = k
    · subst h; simp [insert, find?, hne]
    · by_cases hb : key.before k = true
      · simp [insert, find?, h, hb, hne]
      · simp [insert, find?, h, hb, ih]

/-- A change is found at its key and nowhere else. -/
theorem find?_modify (cells : Cells) (key other : CellKey) (f : Cell → Cell) :
    find? (modify key f cells) other =
      if other = key then (find? cells other).map f else find? cells other := by
  induction cells with
  | nil => simp [modify, find?]
  | cons head rest ih =>
    obtain ⟨k, c⟩ := head
    by_cases h : k = key
    · subst h
      by_cases ho : k = other
      · subst ho; simp [modify, find?]
      · simp [modify, find?, ho, Ne.symm ho]
    · by_cases ho : k = other
      · subst ho; simp [modify, find?, h]
      · simp [modify, find?, h, ho, ih]

/-- A change leaves the keys. -/
@[simp]
theorem map_fst_modify (cells : Cells) (key : CellKey) (f : Cell → Cell) :
    (modify key f cells).map Prod.fst = cells.map Prod.fst := by
  induction cells with
  | nil => rfl
  | cons head rest ih =>
    obtain ⟨k, c⟩ := head
    by_cases h : k = key
    · simp [modify, h]
    · simp [modify, h, ih]

end Cells
end Board
end AwardsDesk
