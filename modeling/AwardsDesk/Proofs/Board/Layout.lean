import AwardsDesk.Board.View
import AwardsDesk.Proofs.Board.Table

/-!
# Layouts

A refresh lays out the divisions of an event once.  When awards are shown from then on, the
rows stay and the cells stay where they are: only what they show of the holders of awards
changes.

Main definitions:

- Function {lit}`Cell.emptied`: a cell without the holder of its award.
- Structure {lit}`View.LaidOut`: a view shows an event with certain divisions.

Main results:

- Theorem {lit}`Division.find?_foldl_addCells`: what is found where divisions are laid out.
- Theorem {lit}`View.laidOut_layOut`: the first refresh lays out the divisions.
- Theorem {lit}`View.LaidOut.fill`: they stay laid out when awards are shown.
-/

namespace AwardsDesk

/-! ## Cells of divisions -/

namespace Division

open Board

variable {d : Division} {place : UInt32} {key : CellKey}

/-- The places of a division count up to the number of its awards. -/
theorem mem_places : place ∈ d.places ↔ 1 ≤ place ∧ place ≤ d.numAwards := by
  have hone : (1 : UInt32).toNat = 1 := rfl
  rw [UInt32.le_iff_toNat_le, UInt32.le_iff_toNat_le, hone, places, List.mem_map]
  constructor
  · rintro ⟨n, hn, rfl⟩
    have hbounds : 1 ≤ n ∧ n < 1 + d.numAwards.toNat := List.mem_range'_1.1 hn
    have hsize := d.numAwards.toNat_lt
    have hsmall : n < 2 ^ 32 := by omega
    rw [UInt32.toNat_ofNat_of_lt' hsmall]
    omega
  · rintro ⟨hfirst, hlast⟩
    refine ⟨place.toNat, List.mem_range'_1.2 ⟨hfirst, by omega⟩, ?_⟩
    exact UInt32.ofNat_toNat

/-- The keys of a division are counted like its places. -/
theorem keys_eq (d : Division) :
    d.keys = (List.range' 1 d.numAwards.toNat).map fun place => ⟨d.rsuDivId, .ofNat place⟩ :=
  List.map_map

/-- The keys of a division are those of its places. -/
theorem mem_keys : key ∈ d.keys ↔ key.rsuDivId = d.rsuDivId ∧ key.place ∈ d.places := by
  rcases key with ⟨rsuDivId, place⟩
  rw [keys, List.mem_map]
  constructor
  · rintro ⟨_, hplace, heq⟩
    obtain ⟨rfl, rfl⟩ := CellKey.mk.inj heq
    exact ⟨rfl, hplace⟩
  · rintro ⟨rfl, hplace⟩
    exact ⟨place, hplace, rfl⟩

/-- At the keys of a division its empty cells are found, and elsewhere what was there. -/
theorem find?_addCells (d : Division) (cells : Cells) (key : CellKey) :
    (d.addCells cells).find? key =
      if key ∈ d.keys then some (d.emptyCell key.place) else cells.find? key := by
  simp only [mem_keys]
  unfold addCells
  induction d.places generalizing cells with
  | nil => simp
  | cons place places ih =>
      rw [List.foldl_cons, ih]
      by_cases hkey : CellKey.mk d.rsuDivId place = key
      · subst hkey
        simp
      · have hplace : key.rsuDivId = d.rsuDivId → key.place ≠ place := by
          rintro hdiv rfl
          exact hkey (by rw [← hdiv])
        have hiff : (key.rsuDivId = d.rsuDivId ∧ key.place ∈ place :: places) ↔
            key.rsuDivId = d.rsuDivId ∧ key.place ∈ places :=
          and_congr_right fun hdiv => by simp [hplace hdiv]
        simp only [Cells.find?_insert_ne hkey, hiff]

/-- At the key of a place the empty cell of the last division is found that has such a place,
and what was there if none has. -/
theorem find?_foldl_addCells (ds : List Division) (cells : Cells) (key : CellKey) :
    (ds.foldl addCells cells).find? key =
      ((ds.reverse.find? fun d => key ∈ d.keys).map (·.emptyCell key.place)).or
        (cells.find? key) := by
  induction ds generalizing cells with
  | nil => rfl
  | cons d ds ih =>
      rw [List.foldl_cons, ih, find?_addCells, List.reverse_cons, List.find?_append]
      cases ds.reverse.find? fun d => key ∈ d.keys with
      | some d' => rfl
      | none =>
          by_cases hkey : key ∈ d.keys
          · simp [hkey]
          · simp [hkey]

end Division

namespace Board

/-! ## Cells without holders -/

/-- A cell without the holder of its award. -/
def Cell.emptied (c : Cell) : Cell where
  divId := c.divId
  header := c.header

/-- A cell with an award shown in it. -/
def Cell.showing (c : Cell) (a : Award) : Cell :=
  { c with
    awardeeId := some a.awardeeId
    bib := some a.bib
    name := some a.name
    pickedUp := a.pickedUp
    prevPickedUp := a.prevPickedUp
    notes := shownNotes a.notes }

/-- A cell that shows an award is not empty. -/
theorem Cell.showing_ne_emptied (c d : Cell) (a : Award) : c.showing a ≠ d.emptied := by
  intro h
  have hawardee := congrArg Cell.awardeeId h
  simp [showing, emptied] at hawardee

/-- A table with all its cells emptied. -/
def Cells.emptied (cells : Cells) : Cells :=
  cells.map fun p => (p.1, p.2.emptied)

namespace View

variable {v : View} {event : UInt64} {divisions : List (List (Option Division))}

/-! ## Laying out -/

/-- What adding empty cells keeps, laying out keeps. -/
theorem layOut_induction {P : Cells → Prop} (hnil : P [])
    (hinsert : ∀ cells key (d : Division) place, P cells → P (cells.insert key (d.emptyCell place)))
    (v : View) (divisions : List (List (Option Division))) : P (v.layOut divisions).cells := by
  have hadd : ∀ (d : Division) {cells : Cells}, P cells → P (d.addCells cells) := by
    intro d
    unfold Division.addCells
    induction d.places with
    | nil => exact fun h => h
    | cons place places ih => exact fun h => ih (hinsert _ _ d place h)
  have hfold : ∀ (ds : List Division) {cells : Cells}, P cells →
      P (ds.foldl Division.addCells cells) := by
    intro ds
    induction ds with
    | nil => exact fun h => h
    | cons d ds ih => exact fun h => ih (hadd d h)
  exact hfold _ hnil

/-- Cells are laid out in order. -/
theorem sorted_layOut (v : View) (divisions : List (List (Option Division))) :
    (v.layOut divisions).cells.Sorted :=
  layOut_induction (P := Cells.Sorted) List.Pairwise.nil (fun _ _ _ _ h => h.insert _ _) v divisions

/-- Cells are laid out empty. -/
theorem emptied_layOut (v : View) (divisions : List (List (Option Division))) :
    (v.layOut divisions).cells.emptied = (v.layOut divisions).cells := by
  refine layOut_induction (P := fun cells => cells.emptied = cells) rfl ?_ v divisions
  intro cells key d place h
  rw [Cells.emptied, Cells.map_insert]
  exact congrArg _ h

/-! ## Views of a layout -/

/-- A view shows an event with its divisions laid out, whatever the holders of the
awards. -/
structure LaidOut (event : UInt64) (divisions : List (List (Option Division))) (v : View) :
    Prop where
  event : v.eventId = some event
  rendered : v.divisionsRendered = true
  rows : v.rows = (layOut {} divisions).rows
  cells : v.cells.emptied = (layOut {} divisions).cells

/-- The first refresh lays out the divisions. -/
theorem laidOut_layOut (hevent : v.eventId = some event)
    (divisions : List (List (Option Division))) :
    LaidOut event divisions (v.layOut divisions) where
  event := hevent
  rendered := rfl
  rows := rfl
  cells := emptied_layOut v divisions

namespace LaidOut

/-- A layout stays when a cell shows another holder. -/
theorem modify (h : LaidOut event divisions v) (key : CellKey) {f : Cell → Cell}
    (hf : ∀ c, (f c).emptied = c.emptied) :
    LaidOut event divisions { v with cells := v.cells.modify key f } where
  event := h.event
  rendered := h.rendered
  rows := h.rows
  cells := (Cells.map_modify hf v.cells key).trans h.cells

/-- A layout stays when awards are shown. -/
theorem fill (h : LaidOut event divisions v) (awards : List Award) :
    LaidOut event divisions (v.fill awards) := by
  unfold View.fill
  induction awards generalizing v with
  | nil => exact h
  | cons a awards ih => exact ih (h.modify ⟨a.rsuDivId, a.place⟩ fun _ => rfl)

end LaidOut
end View
end Board
end AwardsDesk
