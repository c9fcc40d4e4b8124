/-!
# Entries found by a number

Requests, tickets and jobs are kept in lists and found by their numbers.

Main results:

- Theorem {lit}`find?_key_eq_some`: an entry is found when no number is used twice.
- Theorem {lit}`map_eraseP_key`: the numbers that stay when an entry is taken out.
- Theorem {lit}`eraseP_key_eq_filter`: the entries that stay when no number is used twice.
- Theorem {lit}`find?_eraseP_key_ne`: entries of other numbers are found as before.
-/

namespace AwardsDesk

/-- When no key is used twice, an entry is found at its key. -/
theorem find?_key_eq_some {α κ : Type} [BEq κ] [LawfulBEq κ] {key : α → κ} {l : List α}
    (h : (l.map key).Nodup) {a : α} (ha : a ∈ l) : l.find? (key · == key a) = some a := by
  induction l with
  | nil => simp at ha
  | cons b l ih =>
      rw [List.map_cons, List.nodup_cons] at h
      rcases List.mem_cons.1 ha with rfl | hmem
      · simp
      · have hne : key b ≠ key a := by
          intro heq
          exact h.1 (heq ▸ List.mem_map_of_mem hmem)
        rw [List.find?_cons_of_neg (by simpa using hne)]
        exact ih h.2 hmem

section Keyed

variable {α : Type} (key : α → Nat)

/-- Taking out the entry of a number takes the number out of the list of numbers. -/
theorem map_eraseP_key (l : List α) (id : Nat) :
    (l.eraseP (key · == id)).map key = (l.map key).erase id := by
  induction l with
  | nil => rfl
  | cons a l ih =>
      by_cases h : key a = id
      · simp [h]
      · simp [h, ih]

/-- When no number is used twice, taking out the entry of a number leaves all the
entries of other numbers. -/
theorem eraseP_key_eq_filter {l : List α} (h : (l.map key).Nodup) (id : Nat) :
    l.eraseP (key · == id) = l.filter (key · ≠ id) := by
  induction l with
  | nil => rfl
  | cons a l ih =>
      rw [List.map_cons, List.nodup_cons] at h
      by_cases ha : key a = id
      · have hrest : ∀ b ∈ l, key b ≠ id := by
          intro b hb hid
          exact h.1 (ha ▸ hid ▸ List.mem_map_of_mem hb)
        have hkeep : l.filter (key · ≠ id) = l := by
          rw [List.filter_eq_self]
          simpa using hrest
        rw [List.eraseP_cons_of_pos (by simpa using ha), List.filter_cons_of_neg (by simpa using ha),
          hkeep]
      · rw [List.eraseP_cons_of_neg (by simpa using ha), List.filter_cons_of_pos (by simpa using ha),
          ih h.2]

/-- Taking out the entry of a number leaves what is found at other numbers. -/
theorem find?_eraseP_key_ne {id n : Nat} (hne : n ≠ id) (l : List α) :
    (l.eraseP (key · == id)).find? (key · == n) = l.find? (key · == n) := by
  induction l with
  | nil => rfl
  | cons a l ih =>
      by_cases hid : key a = id
      · simp [hid, hne.symm]
      · by_cases hn : key a = n <;> simp [hid, hn, hne, ih]

end Keyed

end AwardsDesk
