import AwardsDesk.Proofs.Store.Rows
import Mathlib.Data.List.Induction
import Mathlib.Order.Bounds.Basic

/-!
# Columns of divisions

The divisions of an event are laid out in a table with a column for each gender.  The columns
stand in the order in which their genders are first met, a column holds its divisions in the
order in which they were given, and the shorter columns are filled up from below.  The same
columns come about when the divisions are filed one after another, each under its gender.

Main definitions:

- Structure {lit}`FirstMet`: what is in a list, in order of first appearance.
- Function {lit}`Store.file`: a division is put in the column of its gender.
- Structure {lit}`Store.Zipped`: rows whose columns are the genders.

Main results:

- Theorem {lit}`Store.foldl_file`: filing the divisions one by one gives the columns.
- Theorem {lit}`Store.divisionRows_by_gender`: the rows of divisions are the columns zipped.
-/

namespace AwardsDesk

/-- What is in a list, each thing once and in the order in which it is first met. -/
structure FirstMet {α : Type} [BEq α] (list firsts : List α) : Prop where
  nodup : firsts.Nodup
  mem_iff : ∀ a, a ∈ firsts ↔ a ∈ list
  ordered : firsts.Pairwise fun a b => list.idxOf a < list.idxOf b

namespace Store

variable {ds : List Division} {d : Division}

/-! ## Genders -/

/-- A gender that stands after another is met later. -/
theorem pairwise_genders (ds : List Division) :
    (genders ds).Pairwise fun g h =>
      (ds.map Division.gender).idxOf g < (ds.map Division.gender).idxOf h := by
  induction ds with
  | nil => exact List.Pairwise.nil
  | cons d ds ih =>
      rw [genders, List.map_cons, List.pairwise_cons]
      constructor
      · intro h hmem
        have hne : d.gender ≠ h := by
          rintro rfl
          simp at hmem
        rw [List.idxOf_cons_self, List.idxOf_cons_ne _ hne]
        omega
      · -- The gender of the first division is left out of the rest, so all others move by one.
        refine (ih.filter _).imp_of_mem ?_
        intro g h hg hh hlt
        have hgne : d.gender ≠ g := by
          rintro rfl
          simp at hg
        have hhne : d.gender ≠ h := by
          rintro rfl
          simp at hh
        rw [List.idxOf_cons_ne _ hgne, List.idxOf_cons_ne _ hhne]
        omega

/-- The genders of divisions stand in order of first appearance. -/
theorem firstMet_genders (ds : List Division) :
    FirstMet (ds.map Division.gender) (genders ds) where
  nodup := nodup_genders ds
  mem_iff := by
    intro g
    rw [mem_genders, List.mem_map]
  ordered := pairwise_genders ds

/-- A gender that comes up once more stands where it stood, a new one at the end. -/
theorem genders_concat (ds : List Division) (d : Division) :
    genders (ds ++ [d]) =
      if d.gender ∈ genders ds then genders ds else genders ds ++ [d.gender] := by
  induction ds with
  | nil => simp [genders]
  | cons d' ds ih =>
      rw [List.cons_append, genders, ih, genders]
      by_cases hsame : d.gender = d'.gender
      · by_cases hmem : d.gender ∈ genders ds <;> simp [hsame, hsame ▸ hmem]
      · by_cases hmem : d.gender ∈ genders ds <;> simp [hsame, hmem]

/-! ## Filing divisions -/

/-- Puts a division in the column of its gender; the first one of a gender opens the column. -/
def file (d : Division) :
    List (Option String × List Division) → List (Option String × List Division)
  | [] => [(d.gender, [d])]
  | (gender, column) :: rest =>
    if gender = d.gender then (gender, column ++ [d]) :: rest
    else (gender, column) :: file d rest

/-- A division is added at the end of the column of its gender. -/
theorem column_concat (ds : List Division) (d : Division) (gender : Option String) :
    column (ds ++ [d]) gender =
      if gender = d.gender then column ds gender ++ [d] else column ds gender := by
  by_cases h : gender = d.gender
  · simp [column, h]
  · simp [column, h, Ne.symm h]

/-- A division whose gender has no column yet opens one. -/
theorem file_of_notMem {gs : List (Option String)} (h : d.gender ∉ gs)
    (content : Option String → List Division) :
    file d (gs.map fun g => (g, content g)) =
      (gs.map fun g => (g, content g)) ++ [(d.gender, [d])] := by
  induction gs with
  | nil => rfl
  | cons g gs ih =>
      rw [List.mem_cons, not_or] at h
      rw [List.map_cons, file, if_neg (Ne.symm h.1), ih h.2, List.cons_append]

/-- A division whose gender has a column is put in that column and nowhere else. -/
theorem file_of_mem {gs : List (Option String)} (hnodup : gs.Nodup) (h : d.gender ∈ gs)
    (content : Option String → List Division) :
    file d (gs.map fun g => (g, content g)) =
      gs.map fun g => (g, if g = d.gender then content g ++ [d] else content g) := by
  induction gs with
  | nil => simp at h
  | cons g gs ih =>
      rw [List.nodup_cons] at hnodup
      rw [List.map_cons, List.map_cons, file]
      by_cases hg : g = d.gender
      · have hrest : gs.map (fun g => (g, if g = d.gender then content g ++ [d] else content g)) =
            gs.map fun g => (g, content g) := by
          apply List.map_congr_left
          intro g' hg'
          have hne : g' ≠ d.gender := fun heq => hnodup.1 (hg ▸ heq ▸ hg')
          rw [if_neg hne]
        rw [if_pos hg, if_pos hg, hrest]
      · have hmem : d.gender ∈ gs := (List.mem_cons.1 h).resolve_left (Ne.symm hg)
        rw [if_neg hg, if_neg hg, ih hnodup.2 hmem]

/-- Filing divisions one after another gives their columns. -/
theorem foldl_file (ds : List Division) :
    ds.foldl (fun columns d => file d columns) [] =
      (genders ds).map fun g => (g, column ds g) := by
  induction ds using List.reverseRecOn with
  | nil => rfl
  | append_singleton ds d ih =>
      rw [List.foldl_append, ih, List.foldl_cons, List.foldl_nil, genders_concat]
      simp only [column_concat]
      by_cases hmem : d.gender ∈ genders ds
      · rw [if_pos hmem, file_of_mem (nodup_genders ds) hmem]
      · have hnew : column ds d.gender = [] := by
          rw [column, List.filter_eq_nil_iff]
          intro d' hd' heq
          exact hmem (mem_genders.2 ⟨d', hd', by simpa using heq⟩)
        have hrest : (genders ds).map (fun g =>
              (g, if g = d.gender then column ds g ++ [d] else column ds g)) =
            (genders ds).map fun g => (g, column ds g) := by
          apply List.map_congr_left
          intro g hg
          have hne : g ≠ d.gender := fun heq => hmem (heq ▸ hg)
          rw [if_neg hne]
        rw [if_neg hmem, file_of_notMem hmem, List.map_append, hrest]
        simp [hnew]

/-! ## The table -/

/-- Rows of divisions in which the columns are the genders. -/
structure Zipped (ds : List Division) (gs : List (Option String))
    (rows : List (List (Option Division))) : Prop where
  /-- A row has one entry for each gender. -/
  width : ∀ row ∈ rows, row.length = gs.length
  /-- There are as many rows as divisions of the most frequent gender. -/
  depth : IsGreatest (Set.range fun g => (ds.map Division.gender).count g) rows.length
  /-- In a row stands one division of each gender, counted from the top. -/
  entry : ∀ (r : Nat) row (c : Nat) g, rows[r]? = some row → gs[c]? = some g →
    row[c]? = some ((ds.filter (·.gender = g))[r]?)

namespace Zipped

variable {gs : List (Option String)} {rows : List (List (Option Division))}
  {row row' : List (Option Division)}

/-- An empty entry is one below the end of its column. -/
theorem exists_of_getElem? (h : Zipped ds gs rows) {r c : Nat} {x : Option Division}
    (hrow : rows[r]? = some row) (hx : row[c]? = some x) :
    ∃ g, gs[c]? = some g ∧ x = (ds.filter (·.gender = g))[r]? := by
  obtain ⟨hlt, -⟩ := List.getElem?_eq_some_iff.1 hx
  rw [h.width row (List.mem_of_getElem? hrow)] at hlt
  have hg := List.getElem?_eq_getElem hlt
  refine ⟨gs[c], hg, ?_⟩
  have hentry := h.entry r row c gs[c] hrow hg
  exact Option.some.inj (hx.symm.trans hentry)

/-- Below an empty entry all entries of the column are empty. -/
theorem none_below (h : Zipped ds gs rows) {r r' c : Nat} (hlt : r < r')
    (hrow : rows[r]? = some row) (hrow' : rows[r']? = some row') (hnone : row[c]? = some none) :
    row'[c]? = some none := by
  obtain ⟨g, hg, hend⟩ := h.exists_of_getElem? hrow hnone
  have hlength := List.getElem?_eq_none_iff.1 hend.symm
  rw [h.entry r' row' c g hrow' hg, List.getElem?_eq_none (by omega)]

/-- The first row is full. -/
theorem none_notMem_first (h : Zipped ds gs rows) (hgs : FirstMet (ds.map Division.gender) gs)
    (hrow : rows[0]? = some row) : none ∉ row := by
  intro hmem
  obtain ⟨c, hc⟩ := List.mem_iff_getElem?.1 hmem
  obtain ⟨g, hg, hend⟩ := h.exists_of_getElem? hrow hc
  have hlength := List.getElem?_eq_none_iff.1 hend.symm
  obtain ⟨d, hd, hgender⟩ := List.mem_map.1 ((hgs.mem_iff g).1 (List.mem_of_getElem? hg))
  have hcolumn : d ∈ ds.filter (·.gender = g) := List.mem_filter.2 ⟨hd, by simpa using hgender⟩
  have hpos := List.length_pos_of_mem hcolumn
  omega

end Zipped

/-- The length of a column is the number of divisions of its gender. -/
theorem length_column (ds : List Division) (g : Option String) :
    (column ds g).length = (ds.map Division.gender).count g := by
  rw [column, List.count, List.countP_map, List.countP_eq_length_filter]
  congr 2
  ext d
  exact (beq_eq_decide d.gender g).symm

/-- The rows are as many as the divisions of the most frequent gender. -/
theorem isGreatest_depth (ds : List Division) :
    IsGreatest (Set.range fun g => (ds.map Division.gender).count g)
      ((((genders ds).map (column ds)).map List.length).foldl max 0) := by
  constructor
  · rw [List.foldl_max]
    cases hmax : (((genders ds).map (column ds)).map List.length).max? with
    | none =>
        have hnone : genders ds = [] := by simpa using List.max?_eq_none_iff.1 hmax
        refine ⟨none, ?_⟩
        have habsent : none ∉ ds.map Division.gender := by
          rw [← (firstMet_genders ds).mem_iff, hnone]
          exact List.not_mem_nil
        simpa using List.count_eq_zero.2 habsent
    | some n =>
        have hmem := List.max?_mem hmax
        simp only [List.map_map, List.mem_map, Function.comp_apply] at hmem
        obtain ⟨g, -, rfl⟩ := hmem
        exact ⟨g, by simp [length_column]⟩
  · rintro n ⟨g, rfl⟩
    dsimp only
    by_cases hg : g ∈ genders ds
    · rw [← length_column]
      exact length_le_depth (List.mem_map_of_mem hg)
    · have habsent : g ∉ ds.map Division.gender := fun hmem =>
        hg (((firstMet_genders ds).mem_iff g).2 hmem)
      simp [List.count_eq_zero.2 habsent]

/-- The rows of divisions are the columns of their genders, read across. -/
theorem zipped_divisionRows (ds : List Division) : Zipped ds (genders ds) (divisionRows ds) where
  width := by
    intro row hrow
    obtain ⟨r, -, rfl⟩ := List.mem_map.1 hrow
    simp
  depth := by
    have hlength : (divisionRows ds).length =
        (((genders ds).map (column ds)).map List.length).foldl max 0 := by
      simp [divisionRows]
    rw [hlength]
    exact isGreatest_depth ds
  entry := by
    intro r row c g hrow hg
    rw [divisionRows, List.getElem?_map, Option.map_eq_some_iff] at hrow
    obtain ⟨r', hr', rfl⟩ := hrow
    obtain ⟨hlt, rfl⟩ := List.getElem?_eq_some_iff.1 hr'
    simp [hg, column]

/-- Whatever the genders of divisions, the rows have a column for each of them, in order of
first appearance, as if the divisions were filed one after another.  The divisions of a gender
stand in its column from the top in the order in which they were given.  So every division
stands in the rows once, no empty entry stands above a division, and the first row is full. -/
theorem divisionRows_by_gender (ds : List Division) :
    ∃ gs, FirstMet (ds.map Division.gender) gs ∧
      ds.foldl (fun columns d => file d columns) [] =
        gs.map (fun g => (g, ds.filter (·.gender = g))) ∧
      Zipped ds gs (divisionRows ds) ∧
      ((divisionRows ds).flatMap fun row => row.filterMap id).Perm ds ∧
      (∀ (r r' c : Nat) row row', r < r' → (divisionRows ds)[r]? = some row →
        (divisionRows ds)[r']? = some row' → row[c]? = some none → row'[c]? = some none) ∧
      ∀ row, (divisionRows ds)[0]? = some row → none ∉ row := by
  have hgenders := firstMet_genders ds
  have hzipped := zipped_divisionRows ds
  refine ⟨genders ds, hgenders, foldl_file ds, hzipped, divisionRows_perm ds, ?_, ?_⟩
  · intro r r' c row row' hlt hrow hrow' hnone
    exact hzipped.none_below hlt hrow hrow' hnone
  · intro row hrow
    exact hzipped.none_notMem_first hgenders hrow

end Store
end AwardsDesk
