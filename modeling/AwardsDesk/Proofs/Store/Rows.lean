import AwardsDesk.Proofs.Store.Records
import Mathlib.Data.List.Perm.Basic

/-!
# Rows of divisions

Divisions are put into columns by gender, and the columns are read row by row.  Every gender
has one column, every column is shorter than the rows are many, so the rows hold every
division once, however the genders are spread.

Main results:

- Theorem {lit}`Store.flatMap_column_perm`: the columns hold every division once.
- Theorem {lit}`Store.transpose_perm`: reading columns row by row loses nothing.
- Theorem {lit}`Store.divisionRows_perm`: the rows hold every division once.
-/

namespace AwardsDesk
namespace Store

variable {ds : List Division}

/-! ## Columns -/

/-- The genders are those of the divisions. -/
theorem mem_genders {gender : Option String} :
    gender ∈ genders ds ↔ ∃ d ∈ ds, d.gender = gender := by
  induction ds with
  | nil => simp [genders]
  | cons d ds ih =>
      rw [genders, List.mem_cons, List.mem_filter, ih]
      by_cases hsame : gender = d.gender
      · simp [hsame]
      · simp [hsame, Ne.symm hsame]

/-- Every gender is given once. -/
theorem nodup_genders (ds : List Division) : (genders ds).Nodup := by
  induction ds with
  | nil => exact List.nodup_nil
  | cons d ds ih =>
      rw [genders, List.nodup_cons]
      exact ⟨by simp, ih.filter _⟩

/-- Columns to which a division of another gender is added stay as they are. -/
theorem flatMap_column_cons {d : Division} {list : List (Option String)} (h : d.gender ∉ list) :
    list.flatMap (column (d :: ds)) = list.flatMap (column ds) := by
  refine List.flatMap_congr fun gender hgender => ?_
  have hne : d.gender ≠ gender := fun heq => h (heq ▸ hgender)
  rw [column, List.filter_cons_of_neg (by simpa using hne), column]

/-- When every gender is listed once, the columns hold every division once. -/
theorem flatMap_column_perm {list : List (Option String)} (hnodup : list.Nodup)
    (hall : ∀ d ∈ ds, d.gender ∈ list) : (list.flatMap (column ds)).Perm ds := by
  induction ds with
  | nil =>
      have hnil : list.flatMap (column []) = [] := by simp [column]
      rw [hnil]
  | cons d ds ih =>
      have hrest := ih fun d' hd' => hall d' (List.mem_cons_of_mem d hd')
      rcases List.append_of_mem (hall d List.mem_cons_self) with ⟨before, after, rfl⟩
      have hapart : d.gender ∉ before ++ after := (List.nodup_middle.1 hnodup).notMem
      rw [List.mem_append, not_or] at hapart
      have hcolumn : column (d :: ds) d.gender = d :: column ds d.gender :=
        List.filter_cons_of_pos (by simp)
      rw [List.flatMap_append, List.flatMap_cons, flatMap_column_cons hapart.1,
        flatMap_column_cons hapart.2, hcolumn]
      rw [List.flatMap_append, List.flatMap_cons] at hrest
      exact List.perm_middle.trans (hrest.cons d)

/-! ## Rows -/

/-- A column is read down to its end. -/
theorem flatMap_getElem? {α : Type} (column : List α) {depth : Nat} (h : column.length ≤ depth) :
    ((List.range depth).flatMap fun row => column[row]?.toList) = column := by
  induction column generalizing depth with
  | nil => simp
  | cons a column ih =>
      cases depth with
      | zero => simp at h
      | succ depth =>
          rw [List.range_succ_eq_map, List.flatMap_cons, List.flatMap_map]
          exact congrArg (a :: ·) (ih (Nat.le_of_succ_le_succ h))

/-- Columns that are read row by row are read as a whole. -/
theorem transpose_perm {α : Type} {columns : List (List α)} {depth : Nat}
    (h : ∀ column ∈ columns, column.length ≤ depth) :
    ((List.range depth).flatMap fun row => columns.filterMap fun column => column[row]?).Perm
      columns.flatten := by
  induction columns with
  | nil => simp
  | cons column columns ih =>
      have hfirst := flatMap_getElem? column (h column List.mem_cons_self)
      have hrest := ih fun c hc => h c (List.mem_cons_of_mem column hc)
      have hsplit : ((List.range depth).flatMap fun row =>
          (column :: columns).filterMap fun column => column[row]?) =
          (List.range depth).flatMap fun row =>
            column[row]?.toList ++ columns.filterMap fun column => column[row]? := by
        refine List.flatMap_congr fun row _ => ?_
        cases hget : column[row]? <;> simp [hget]
      rw [hsplit, List.flatten_cons]
      refine (List.flatMap_append_perm _ _ _).symm.trans ?_
      rw [hfirst]
      exact hrest.append_left column

/-- No column is longer than the rows are many. -/
theorem length_le_depth {columns : List (List Division)} {column : List Division}
    (h : column ∈ columns) : column.length ≤ (columns.map List.length).foldl max 0 := by
  rw [List.foldl_max]
  exact Nat.le_trans (List.le_max?_getD_of_mem (List.mem_map_of_mem h)) (Nat.le_max_right 0 _)

/-- The rows hold every division once, whatever the genders. -/
theorem divisionRows_perm (ds : List Division) :
    ((divisionRows ds).flatMap fun row => row.filterMap id).Perm ds := by
  have hcolumns := flatMap_column_perm (nodup_genders ds) fun d hd => mem_genders.2 ⟨d, hd, rfl⟩
  have hshort : ∀ list ∈ (genders ds).map (column ds), list.length ≤
      (((genders ds).map (column ds)).map List.length).foldl max 0 :=
    fun _ => length_le_depth
  have hread : ((divisionRows ds).flatMap fun row => row.filterMap id) =
      (List.range ((((genders ds).map (column ds)).map List.length).foldl max 0)).flatMap
        fun row => ((genders ds).map (column ds)).filterMap fun column => column[row]? := by
    simp only [divisionRows, List.flatMap_map, List.filterMap_map]
    rfl
  rw [hread]
  refine (transpose_perm hshort).trans ?_
  rwa [← List.flatMap_def]

end Store
end AwardsDesk
