/-!
# Cell keys and places

A place of a division is shown in a cell.  The cell's key is the number that the
results service gives the division, and the place.

Main results:

- Theorems {lit}`CellKey.le_total`, {lit}`CellKey.le_trans` and
  {lit}`CellKey.le_antisymm`: keys are in a linear order.
- Theorems {lit}`CellKey.sort_perm` and {lit}`CellKey.pairwise_sort`: sorting keeps the
  keys and puts them in order.
-/

namespace AwardsDesk

/-- The key of a cell: a division, and a place in it. -/
structure CellKey where
  rsuDivId : UInt64
  place : UInt32
deriving DecidableEq, Repr, Inhabited

namespace CellKey

/-- The key as text. -/
def text (k : CellKey) : String :=
  toString k.rsuDivId.toNat ++ "-" ++ toString k.place.toNat

/-- Keys are ordered by division, then by place, as numbers. -/
def before (a b : CellKey) : Bool :=
  a.rsuDivId < b.rsuDivId || (a.rsuDivId == b.rsuDivId && a.place < b.place)

/-- Whether a key does not come after another. -/
def le (a b : CellKey) : Bool :=
  !b.before a

/-- Keys in increasing order. -/
def sort (keys : List CellKey) : List CellKey :=
  keys.mergeSort le

/-! ## The order of keys -/

/-- The order of keys in numbers. -/
theorem before_iff {a b : CellKey} :
    a.before b = true ↔
      a.rsuDivId.toNat < b.rsuDivId.toNat ∨
        (a.rsuDivId.toNat = b.rsuDivId.toNat ∧ a.place.toNat < b.place.toNat) := by
  simp [before, UInt64.lt_iff_toNat_lt, UInt32.lt_iff_toNat_lt, UInt64.toNat_inj]

/-- A key is not after another when it is before it or the same. -/
theorem le_iff {a b : CellKey} :
    a.le b = true ↔
      a.rsuDivId.toNat < b.rsuDivId.toNat ∨
        (a.rsuDivId.toNat = b.rsuDivId.toNat ∧ a.place.toNat ≤ b.place.toNat) := by
  simp only [le, Bool.not_eq_true', ← Bool.not_eq_true, before_iff]
  omega

/-- No key comes before itself. -/
@[simp]
theorem before_self (k : CellKey) : k.before k = false := by
  simp [before]

/-- Any two keys can be compared. -/
theorem le_total (a b : CellKey) : (a.le b || b.le a) = true := by
  simp only [Bool.or_eq_true, le_iff]
  omega

/-- The order passes from key to key. -/
theorem le_trans {a b c : CellKey} (hab : a.le b = true) (hbc : b.le c = true) :
    a.le c = true := by
  simp only [le_iff] at *
  omega

/-- Keys that are not after each other are the same. -/
theorem le_antisymm {a b : CellKey} (hab : a.le b = true) (hba : b.le a = true) : a = b := by
  obtain ⟨d, p⟩ := a
  obtain ⟨e, q⟩ := b
  simp only [le_iff] at hab hba
  have hd : d.toNat = e.toNat := by omega
  have hp : p.toNat = q.toNat := by omega
  rw [UInt64.toNat_inj.1 hd, UInt32.toNat_inj.1 hp]

/-- Sorting loses no key and adds none. -/
theorem sort_perm (keys : List CellKey) : (sort keys).Perm keys :=
  List.mergeSort_perm keys le

/-- Sorted keys are in order. -/
theorem pairwise_sort (keys : List CellKey) :
    (sort keys).Pairwise fun a b => a.le b = true := by
  have htrans : ∀ a b c : CellKey, le a b = true → le b c = true → le a c = true :=
    fun _ _ _ => le_trans
  have htotal : ∀ a b : CellKey, (le a b || le b a) = true := le_total
  exact List.pairwise_mergeSort htrans htotal keys

end CellKey

/-- The ending of an ordinal number: `1st`, `2nd`, `3rd`, `4th`, but `11th`. -/
def ordinalSuffix (n : Nat) : String :=
  if 11 ≤ n % 100 ∧ n % 100 ≤ 13 then "th"
  else if n % 10 = 1 then "st"
  else if n % 10 = 2 then "nd"
  else if n % 10 = 3 then "rd"
  else "th"

end AwardsDesk
