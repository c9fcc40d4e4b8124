import AwardsDesk.Proofs.Board.Sound
import AwardsDesk.Proofs.Store.Rows

/-!
# Events on display

When the divisions of an event are laid out and its awards are shown, the view shows the event
as it is on record: a cell for every place of every division, the holder of the award in it if
there is one, and nothing else.  For that the divisions need numbers of their own, and a place
one holder at most.

Main definitions:

- Inductive type {lit}`OrdinalEnding`: how ordinal numbers end in English.
- Structure {lit}`Store.Event.Unambiguous`: an event in which a place has one holder at most.
- Structures {lit}`Cell.ShowsPlace` and {lit}`View.ShowsEvent`: an event is shown as it is on
  record.

Main results:

- Theorem {lit}`Store.Event.Unambiguous.showsPlace`: a cell shows its place.
- Theorem {lit}`Store.Event.Unambiguous.showsEvent`: the view shows the event.
-/

namespace AwardsDesk

/-! ## Ordinal numbers -/

/-- The endings of ordinal numbers in English: all of the teens have the same one, other
numbers go by their last digit. -/
inductive OrdinalEnding (n : Nat) : String → Prop where
  | teen (teen : n / 10 % 10 = 1) : OrdinalEnding n "th"
  | first (last : n % 10 = 1) (other : n / 10 % 10 ≠ 1) : OrdinalEnding n "st"
  | second (last : n % 10 = 2) (other : n / 10 % 10 ≠ 1) : OrdinalEnding n "nd"
  | third (last : n % 10 = 3) (other : n / 10 % 10 ≠ 1) : OrdinalEnding n "rd"
  | later (last : n % 10 = 0 ∨ 4 ≤ n % 10) : OrdinalEnding n "th"

/-- Places are given the endings of ordinal numbers. -/
theorem ordinalEnding (n : Nat) : OrdinalEnding n (ordinalSuffix n) := by
  unfold ordinalSuffix
  split
  · exact .teen (by omega)
  · split
    · exact .first ‹_› (by omega)
    · split
      · exact .second ‹_› (by omega)
      · split
        · exact .third ‹_› (by omega)
        · exact .later (by omega)

/-! ## What is on record -/

/-- No two divisions of an event have the same number in the results service, and no two active
awardees have the same place in a division. -/
structure Store.Event.Unambiguous (e : Store.Event) : Prop where
  results : (e.divisions.map Division.rsuDivId).Nodup
  holders : ∀ a ∈ e.awardees, ∀ b ∈ e.awardees, a.active → b.active → a.divId = b.divId →
    a.place = b.place → a = b

namespace Board

/-- A cell shows a place of a division as it is on record in an event: the division, the place
as an ordinal number before the name of the division, and the active awardee of the place if
there is one. -/
structure Cell.ShowsPlace (e : Store.Event) (d : Division) (place : UInt32) (c : Cell) :
    Prop where
  division : c.divId = d.divId
  header : ∃ ending, OrdinalEnding place.toNat ending ∧
    c.header = toString place.toNat ++ ending ++ " " ++ d.name
  taken : ∀ a ∈ e.awardees, a.active → a.divId = d.divId → a.place = place →
    c.awardeeId = some a.awardeeId ∧ c.name = some a.name ∧ c.bib = some a.bib ∧
      c.pickedUp = a.pickedUp ∧ c.prevPickedUp = e.prevPickedUp a ∧
      c.notes = a.notes.filter (· ≠ "")
  vacant : (∀ a ∈ e.awardees, a.active → a.divId = d.divId → a.place ≠ place) →
    c.awardeeId = none ∧ c.name = none ∧ c.bib = none ∧ c.pickedUp = false ∧
      c.prevPickedUp = false ∧ c.notes = none

/-- A view shows an event as it is on record. -/
structure View.ShowsEvent (e : Store.Event) (v : View) : Prop where
  /-- The keys are those of the places of the divisions. -/
  keys : ∀ key, key ∈ v.cells.map Prod.fst ↔
    ∃ d ∈ e.divisions, key.rsuDivId = d.rsuDivId ∧ 1 ≤ key.place ∧ key.place ≤ d.numAwards
  /-- Every key has one cell. -/
  once : (v.cells.map Prod.fst).Nodup
  /-- The cell of a key shows its place. -/
  cells : ∀ d ∈ e.divisions, ∀ place, 1 ≤ place → place ≤ d.numAwards →
    ∃ c, v.cell? ⟨d.rsuDivId, place⟩ = some c ∧ c.ShowsPlace e d place
  /-- A row has a group of keys for each division in the row, first place first. -/
  rows : v.rows = (Store.divisionRows e.byPriority).map fun row =>
    (row.filterMap id).map fun d =>
      (List.range' 1 d.numAwards.toNat).map fun place => ⟨d.rsuDivId, .ofNat place⟩
  /-- Every division has one group. -/
  groups : v.rows.flatten.Perm (e.divisions.map Division.keys)

/-- Views that show the same show the same event. -/
theorem View.ShowsEvent.of_alike {e : Store.Event} {v w : View} (h : v.ShowsEvent e)
    (halike : w.Alike v) : w.ShowsEvent e where
  keys := halike.cells ▸ h.keys
  once := halike.cells ▸ h.once
  cells := by
    simp only [halike.cell?_eq]
    exact h.cells
  rows := halike.rows.trans h.rows
  groups := halike.rows ▸ h.groups

end Board

/-! ## Layouts -/

namespace Store.Event

variable {e : Event} {d : Division}

/-- The divisions that are laid out are those of the event. -/
theorem divisionRows_byPriority_perm (e : Event) :
    ((divisionRows e.byPriority).map fun row => row.filterMap id).flatten.Perm e.divisions := by
  rw [← List.flatMap_def]
  exact (divisionRows_perm e.byPriority).trans (List.mergeSort_perm _ _)

/-- The keys of the layout of an event are those of its divisions. -/
theorem mem_keys_layOut (e : Event) (v : Board.View) (key : CellKey) :
    key ∈ (v.layOut (divisionRows e.byPriority)).cells.map Prod.fst ↔
      ∃ d ∈ e.divisions, key ∈ d.keys := by
  rw [Board.View.layOut, Division.mem_keys_foldl_addCells, ← List.flatMap_def, List.mem_flatMap]
  simp only [e.divisionRows_byPriority_perm.mem_iff, List.map_nil, List.not_mem_nil, or_false]

/-- An empty cell shows a place without a holder. -/
theorem emptyCell_showsPlace {place : UInt32}
    (h : ∀ a ∈ e.awardees, a.active → a.divId = d.divId → a.place ≠ place) :
    (d.emptyCell place).ShowsPlace e d place where
  division := rfl
  header := ⟨_, ordinalEnding _, rfl⟩
  taken := fun a ha hactive hdiv hat => absurd hat (h a ha hactive hdiv)
  vacant := fun _ => ⟨rfl, rfl, rfl, rfl, rfl, rfl⟩

namespace Unambiguous

/-- Every place has its empty cell in the layout of an event. -/
theorem cell?_layOut (h : e.Unambiguous) (v : Board.View) (hd : d ∈ e.divisions) {place : UInt32}
    (hplace : place ∈ d.places) :
    (v.layOut (divisionRows e.byPriority)).cell? ⟨d.rsuDivId, place⟩ =
      some (d.emptyCell place) := by
  have hkey : CellKey.mk d.rsuDivId place ∈ d.keys := Division.mem_keys.2 ⟨rfl, hplace⟩
  have hrows : ∀ d', d' ∈ ((divisionRows e.byPriority).map fun row => row.filterMap id).flatten ↔
      d' ∈ e.divisions := fun _ => e.divisionRows_byPriority_perm.mem_iff
  rw [Board.View.cell?, Board.View.layOut, Division.find?_foldl_addCells]
  generalize ((divisionRows e.byPriority).map fun row => row.filterMap id).flatten = ds at hrows
  cases hfind : ds.reverse.find? fun d' => CellKey.mk d.rsuDivId place ∈ d'.keys with
  | none =>
      have habsent := List.find?_eq_none.1 hfind d (List.mem_reverse.2 ((hrows d).2 hd))
      exact absurd hkey (by simpa using habsent)
  | some d' =>
      have hmem := (hrows d').1 (List.mem_reverse.1 (List.mem_of_find?_eq_some hfind))
      have hkey' : CellKey.mk d.rsuDivId place ∈ d'.keys := by simpa using List.find?_some hfind
      obtain rfl : d = d' :=
        List.inj_on_of_nodup_map h.results hd hmem (Division.mem_keys.1 hkey').1
      rfl

/-! ## Awards in their cells -/

/-- The awards with the key of a place are those of its holders. -/
theorem mem_awards_at (h : e.Unambiguous) (hd : d ∈ e.divisions) {place : UInt32} {x : Award} :
    x ∈ e.awards.filter (·.key = ⟨d.rsuDivId, place⟩) ↔
      ∃ a ∈ e.awardees, a.active ∧ a.divId = d.divId ∧ a.place = place ∧ x = e.award d a := by
  rw [List.mem_filter, mem_awards_iff, decide_eq_true_eq]
  constructor
  · rintro ⟨⟨d', hd', a, ha, hactive, hdiv, rfl⟩, hkey⟩
    obtain ⟨hresult, hplace⟩ := CellKey.mk.inj hkey
    obtain rfl : d' = d := List.inj_on_of_nodup_map h.results hd' hd hresult
    exact ⟨a, ha, hactive, hdiv, hplace, rfl⟩
  · rintro ⟨a, ha, hactive, hdiv, rfl, rfl⟩
    exact ⟨⟨d, hd, a, ha, hactive, hdiv, rfl⟩, rfl⟩

/-- The cell in which the award of its holder is shown shows a place. -/
theorem showing_showsPlace (h : e.Unambiguous) {a : Awardee} (ha : a ∈ e.awardees)
    (hactive : a.active) (hdiv : a.divId = d.divId) :
    ((d.emptyCell a.place).showing (e.award d a)).ShowsPlace e d a.place where
  division := rfl
  header := ⟨_, ordinalEnding _, rfl⟩
  taken := by
    intro b hb hactive' hdiv' hat
    obtain rfl := h.holders b hb a ha hactive' hactive (hdiv'.trans hdiv.symm) hat
    exact ⟨rfl, rfl, rfl, rfl, rfl, rfl⟩
  vacant := fun hvacant => absurd rfl (hvacant a ha hactive hdiv)

/-- When the awards of an event are shown in its layout, a cell shows its place. -/
theorem showsPlace (h : e.Unambiguous) (v : Board.View) (hd : d ∈ e.divisions) {place : UInt32}
    (hplace : place ∈ d.places) :
    ∃ c, ((v.layOut (divisionRows e.byPriority)).fill e.awards).cell? ⟨d.rsuDivId, place⟩ =
      some c ∧ c.ShowsPlace e d place := by
  rw [Board.View.cell?_fill, h.cell?_layOut v hd hplace, Option.map_some]
  refine ⟨_, rfl, ?_⟩
  -- A place has one holder at most, so it does not matter which of its awards is shown last.
  rcases Board.Cell.foldl_showing_cases (d.emptyCell place)
      (e.awards.filter (·.key = ⟨d.rsuDivId, place⟩)) with hnone | ⟨x, hx, hshown⟩
  · rw [hnone]
    refine emptyCell_showsPlace fun a ha hactive hdiv hat => ?_
    have hlisted := (h.mem_awards_at hd).2 ⟨a, ha, hactive, hdiv, hat, rfl⟩
    exact absurd (hnone ▸ hlisted) List.not_mem_nil
  · rcases (h.mem_awards_at hd).1 hx with ⟨a, ha, hactive, hdiv, rfl, rfl⟩
    rw [hshown]
    exact h.showing_showsPlace ha hactive hdiv

/-- When the awards of an event are shown in its layout, the view shows the event. -/
theorem showsEvent (h : e.Unambiguous) (v : Board.View) :
    ((v.layOut (divisionRows e.byPriority)).fill e.awards).ShowsEvent e where
  keys := by
    intro key
    rw [Board.View.map_fst_fill, mem_keys_layOut]
    simp only [Division.mem_keys, Division.mem_places]
  once := by
    rw [Board.View.map_fst_fill]
    exact (Board.View.sorted_layOut v _).nodup
  cells := by
    intro d hd place hfirst hlast
    exact h.showsPlace v hd (Division.mem_places.2 ⟨hfirst, hlast⟩)
  rows := by
    rw [Board.View.fill_eq, Board.View.layOut, funext Division.keys_eq, List.map_map]
    rfl
  groups := by
    rw [Board.View.fill_eq, Board.View.layOut]
    change (((divisionRows e.byPriority).map fun row => row.filterMap id).map
      (List.map Division.keys)).flatten.Perm _
    rw [← List.map_flatten]
    exact e.divisionRows_byPriority_perm.map Division.keys

end Unambiguous
end Store.Event
end AwardsDesk
