import AwardsDesk.Board.Cells

/-!
# Cells as a table

The cells of a board are a table with a row for each key, in the order of the keys.  Two
tables with the same keys are the same when the same cell is found at every key, and what
cells have in common with a change of them can be looked at cell by cell.

Main definitions:

- Definition {lit}`Cells.Sorted`: the keys of a table are in order.

Main results:

- Theorem {lit}`Cells.Sorted.insert`: a table stays in order.
- Theorem {lit}`Cells.ext_find?`: tables are told apart by what is found in them.
- Theorem {lit}`Cells.map_modify`: a change that a function of the cells does not see.
- Theorems {lit}`Cells.modify_comm` and {lit}`Cells.modify_modify`: two changes one after the
  other.
-/

namespace AwardsDesk

namespace CellKey

/-- A key before another is before all those after that. -/
theorem before_trans {a b c : CellKey} (hab : a.before b = true) (hbc : b.before c = true) :
    a.before c = true := by
  simp only [before_iff] at *
  omega

/-- Of two keys one is before the other. -/
theorem before_of_not_before {a b : CellKey} (hne : a ≠ b) (h : ¬a.before b = true) :
    b.before a = true := by
  cases hba : b.before a with
  | true => rfl
  | false => exact absurd (le_antisymm (by simpa [le] using hba) (by simpa [le] using h)) hne

end CellKey

namespace Board
namespace Cells

variable {cells : Cells} {key : CellKey} {cell : Cell}

/-- The keys of a table are in increasing order. -/
def Sorted (cells : Cells) : Prop :=
  (cells.map Prod.fst).Pairwise fun a b => a.before b = true

/-- The keys of a table to which a cell is added. -/
theorem mem_keys_insert {k : CellKey} :
    k ∈ (insert key cell cells).map Prod.fst ↔ k = key ∨ k ∈ cells.map Prod.fst := by
  induction cells with
  | nil => simp [insert]
  | cons head rest ih =>
      rcases head with ⟨k', c⟩
      by_cases heq : key = k'
      · simp [insert, heq]
      · by_cases hbefore : key.before k' = true
        · simp [insert, heq, hbefore]
        · rw [insert, if_neg heq, if_neg hbefore, List.map_cons, List.mem_cons, ih, List.map_cons,
            List.mem_cons]
          exact or_left_comm

/-- A table stays in order when a cell is added. -/
theorem Sorted.insert (h : cells.Sorted) (key : CellKey) (cell : Cell) :
    (Cells.insert key cell cells).Sorted := by
  induction cells with
  | nil => exact List.pairwise_singleton _ _
  | cons head rest ih =>
      rcases head with ⟨k, c⟩
      rcases List.pairwise_cons.1 h with ⟨hfirst, hrest⟩
      by_cases heq : key = k
      · rw [Cells.insert, if_pos heq, heq]
        exact h
      · by_cases hbefore : key.before k = true
        · rw [Cells.insert, if_neg heq, if_pos hbefore]
          refine List.pairwise_cons.2 ⟨fun k' hk' => ?_, h⟩
          rcases List.mem_cons.1 hk' with rfl | hk'
          · exact hbefore
          · exact CellKey.before_trans hbefore (hfirst k' hk')
        · rw [Cells.insert, if_neg heq, if_neg hbefore]
          refine List.pairwise_cons.2 ⟨fun k' hk' => ?_, ih hrest⟩
          rcases mem_keys_insert.1 hk' with rfl | hk'
          · exact CellKey.before_of_not_before heq hbefore
          · exact hfirst k' hk'

/-- A table in order has every key once. -/
theorem Sorted.nodup (h : cells.Sorted) : (cells.map Prod.fst).Nodup := by
  refine h.imp fun {a b} hab heq => ?_
  rw [heq, CellKey.before_self] at hab
  exact Bool.false_ne_true hab

/-- Nothing is found at a key that a table does not have. -/
theorem find?_eq_none (h : key ∉ cells.map Prod.fst) : find? cells key = none := by
  induction cells with
  | nil => rfl
  | cons head rest ih =>
      rw [List.map_cons, List.mem_cons, not_or] at h
      rw [find?, if_neg (Ne.symm h.1), ih h.2]

/-- Tables with the same keys are the same when the same is found in them. -/
theorem ext_find? {other : Cells} (hkeys : cells.map Prod.fst = other.map Prod.fst)
    (hnodup : (cells.map Prod.fst).Nodup) (h : ∀ key, find? cells key = find? other key) :
    cells = other := by
  induction cells generalizing other with
  | nil => exact (List.map_eq_nil_iff.1 hkeys.symm).symm
  | cons head rest ih =>
      cases other with
      | nil => simp at hkeys
      | cons head' rest' =>
          rcases head with ⟨k, c⟩
          rcases head' with ⟨k', c'⟩
          obtain ⟨rfl, hrest⟩ : k = k' ∧ rest.map Prod.fst = rest'.map Prod.fst := by
            simpa using hkeys
          rcases List.nodup_cons.1 hnodup with ⟨hnot, hnodup⟩
          obtain rfl : c = c' := by simpa [find?] using h k
          have hfind : ∀ key, find? rest key = find? rest' key := by
            intro key
            by_cases hkey : k = key
            · rw [← hkey, find?_eq_none hnot, find?_eq_none (hrest ▸ hnot)]
            · simpa [find?, hkey] using h key
          rw [ih hrest hnodup hfind]

/-- What is found in a table whose cells are all changed. -/
theorem find?_map (cells : Cells) (f : Cell → Cell) (key : CellKey) :
    find? (cells.map fun p => (p.1, f p.2)) key = (find? cells key).map f := by
  induction cells with
  | nil => rfl
  | cons head rest ih =>
      rcases head with ⟨k, c⟩
      by_cases h : k = key
      · simp [find?, h]
      · simp [find?, h, ih]

/-- A table whose cells are all changed after one was added. -/
theorem map_insert (f : Cell → Cell) (cells : Cells) (key : CellKey) (cell : Cell) :
    (insert key cell cells).map (fun p => (p.1, f p.2)) =
      insert key (f cell) (cells.map fun p => (p.1, f p.2)) := by
  induction cells with
  | nil => rfl
  | cons head rest ih =>
      rcases head with ⟨k, c⟩
      by_cases heq : key = k
      · simp [insert, heq]
      · by_cases hbefore : key.before k = true
        · simp [insert, heq, hbefore]
        · simp [insert, heq, hbefore, ih]

/-- A change of one cell is not seen by a function that gives the same for it. -/
theorem map_modify {f g : Cell → Cell} (h : ∀ c, f (g c) = f c) (cells : Cells) (key : CellKey) :
    (modify key g cells).map (fun p => (p.1, f p.2)) = cells.map fun p => (p.1, f p.2) := by
  induction cells with
  | nil => rfl
  | cons head rest ih =>
      rcases head with ⟨k, c⟩
      by_cases hk : k = key
      · simp [modify, hk, h]
      · simp [modify, hk, ih]

/-! ## Changes one after another -/

/-- Changes of different cells can be made in any order. -/
theorem modify_comm {other : CellKey} (hne : key ≠ other) (f g : Cell → Cell) (cells : Cells) :
    modify key f (modify other g cells) = modify other g (modify key f cells) := by
  induction cells with
  | nil => rfl
  | cons head rest ih =>
      rcases head with ⟨k, c⟩
      by_cases hkey : k = key
      · subst hkey
        simp [modify, hne]
      · by_cases hother : k = other
        · subst hother
          simp [modify, hkey]
        · simp [modify, hkey, hother, ih]

/-- Of two changes of a cell the second one is made on what the first one left. -/
theorem modify_modify (f g : Cell → Cell) (cells : Cells) (key : CellKey) :
    modify key f (modify key g cells) = modify key (f ∘ g) cells := by
  induction cells with
  | nil => rfl
  | cons head rest ih =>
      rcases head with ⟨k, c⟩
      by_cases hkey : k = key
      · simp [modify, hkey]
      · simp [modify, hkey, ih]

/-- Nothing is changed where there is no cell. -/
theorem modify_of_find?_eq_none (h : find? cells key = none) (f : Cell → Cell) :
    modify key f cells = cells := by
  induction cells with
  | nil => rfl
  | cons head rest ih =>
      rcases head with ⟨k, c⟩
      by_cases hkey : k = key
      · simp [find?, hkey] at h
      · rw [find?, if_neg hkey] at h
        rw [modify, if_neg hkey, ih h]

end Cells
end Board
end AwardsDesk
