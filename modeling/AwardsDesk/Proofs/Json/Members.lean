import AwardsDesk.Json.Value
import Mathlib.Data.List.Induction
import Mathlib.Data.String.Basic

/-!
# Members of records

Members are kept in increasing order of their keys, each key once, in whatever order they were
given.

Main definitions:

- Definition {lit}`Members.Sorted`: members are in the order of their keys.

Main results:

- Theorem {lit}`Members.sorted_ofList`: members are put in order.
- Theorem {lit}`Members.get?_ofList`: of the members with a key the last is found.
- Theorem {lit}`Members.Sorted.get?_eq`: every member is found.
- Theorem {lit}`Members.Sorted.ofList_eq`: members in order are left as they are.
-/

namespace AwardsDesk
namespace Json
namespace Members

variable {members : List (String × Value)} {key : String} {v : Value}

/-- Members are in increasing order of their keys. -/
def Sorted (members : List (String × Value)) : Prop :=
  (members.map Prod.fst).Pairwise (· < ·)

/-! ## Members in order -/

/-- A member that was inserted, or was there before. -/
theorem mem_insert {m : String × Value} (h : m ∈ insert key v members) :
    m = (key, v) ∨ m ∈ members := by
  induction members with
  | nil => simpa [insert] using h
  | cons head rest ih =>
      rcases head with ⟨k, w⟩
      rw [insert] at h
      split_ifs at h with hlt heq
      · exact List.mem_cons.1 h
      · exact (List.mem_cons.1 h).imp_right (List.mem_cons_of_mem _)
      · rcases List.mem_cons.1 h with rfl | hrest
        · exact Or.inr List.mem_cons_self
        · exact (ih hrest).imp_right (List.mem_cons_of_mem _)

/-- Members stay in order when one is inserted. -/
theorem Sorted.insert (h : Sorted members) (key : String) (v : Value) :
    Sorted (Members.insert key v members) := by
  induction members with
  | nil => exact List.pairwise_singleton _ _
  | cons head rest ih =>
      rcases head with ⟨k, w⟩
      rcases List.pairwise_cons.1 h with ⟨hfirst, hrest⟩
      rw [Members.insert]
      split_ifs with hlt heq
      · refine List.pairwise_cons.2 ⟨fun k' hk' => ?_, h⟩
        rcases List.mem_cons.1 hk' with rfl | hk'
        · exact hlt
        · exact lt_trans hlt (hfirst k' hk')
      · exact heq ▸ h
      · refine List.pairwise_cons.2 ⟨fun k' hk' => ?_, ih hrest⟩
        rcases List.mem_map.1 hk' with ⟨m, hm, rfl⟩
        rcases mem_insert hm with rfl | hmem
        · exact lt_of_le_of_ne (not_lt.1 hlt) (Ne.symm heq)
        · exact hfirst m.1 (List.mem_map_of_mem hmem)

/-- Members given in any order are put in order. -/
theorem sorted_ofList (members : List (String × Value)) : Sorted (ofList members) := by
  refine List.foldlRecOn members _ List.Pairwise.nil fun done hdone m _ => ?_
  exact hdone.insert m.1 m.2

/-- Nothing is added when members are put in order. -/
theorem mem_of_mem_ofList {m : String × Value} (h : m ∈ ofList members) : m ∈ members := by
  induction members using List.reverseRecOn with
  | nil => simp [ofList] at h
  | append_singleton members n ih =>
      rw [ofList, List.foldl_append, ← ofList] at h
      rcases mem_insert h with rfl | hmem
      · simp
      · exact List.mem_append_left _ (ih hmem)

/-! ## What is found -/

/-- Of the members with a key the last one is found. -/
theorem get?_ofList (members : List (String × Value)) (key : String) :
    get? (ofList members) key = members.reverse.lookup key := by
  induction members using List.reverseRecOn with
  | nil => rfl
  | append_singleton members m ih =>
      rcases m with ⟨k, w⟩
      rw [ofList, List.foldl_append, List.foldl_cons, List.foldl_nil, ← ofList,
        List.reverse_append, List.reverse_singleton, List.singleton_append, List.lookup_cons]
      by_cases heq : key = k
      · rw [heq, get?_insert_self, beq_self_eq_true]
      · rw [get?_insert_ne (Ne.symm heq), ih, beq_false_of_ne heq]

/-- Each of the members that are in order is found. -/
theorem Sorted.get?_eq (h : Sorted members) (hmem : (key, v) ∈ members) :
    get? members key = some v := by
  induction members with
  | nil => simp at hmem
  | cons head rest ih =>
      rcases head with ⟨k, w⟩
      rcases List.pairwise_cons.1 h with ⟨hfirst, hrest⟩
      rcases List.mem_cons.1 hmem with heq | hmem
      · cases heq
        simp [get?]
      · have hne : k ≠ key := ne_of_lt (hfirst key (List.mem_map_of_mem hmem))
        rw [get?, if_neg hne, ih hrest hmem]

/-! ## Members that are in order already -/

/-- A member with the greatest key is inserted at the end. -/
theorem insert_eq_append (h : ∀ m ∈ members, m.1 < key) (v : Value) :
    insert key v members = members ++ [(key, v)] := by
  induction members with
  | nil => rfl
  | cons head rest ih =>
      rcases head with ⟨k, w⟩
      have hk : k < key := h (k, w) List.mem_cons_self
      rw [insert, if_neg (lt_asymm hk), if_neg (ne_of_gt hk),
        ih fun m hm => h m (List.mem_cons_of_mem _ hm)]
      rfl

/-- Members that are in order are left as they are. -/
theorem Sorted.ofList_eq (h : Sorted members) : ofList members = members := by
  induction members using List.reverseRecOn with
  | nil => rfl
  | append_singleton members m ih =>
      rw [Sorted, List.map_append, List.pairwise_append] at h
      rcases h with ⟨hmembers, -, hlast⟩
      rw [ofList, List.foldl_append, ← ofList, ih hmembers]
      exact insert_eq_append
        (fun n hn => hlast n.1 (List.mem_map_of_mem hn) m.1 (by simp)) m.2

/-- Members are put in the same order when their values are changed. -/
theorem map_ofList (f : Value → Value) (members : List (String × Value)) :
    (ofList members).map (fun m => (m.1, f m.2)) =
      ofList (members.map fun m => (m.1, f m.2)) := by
  have hinsert : ∀ (k : String) (w : Value) (done : List (String × Value)),
      (insert k w done).map (fun m => (m.1, f m.2)) =
        insert k (f w) (done.map fun m => (m.1, f m.2)) := by
    intro k w done
    induction done with
    | nil => rfl
    | cons head rest ih =>
        rcases head with ⟨k', w'⟩
        rw [insert, List.map_cons, insert]
        split_ifs
        · rfl
        · rfl
        · rw [List.map_cons, ih]
  induction members using List.reverseRecOn with
  | nil => rfl
  | append_singleton members m ih =>
      rw [List.map_append, ofList, ofList, List.foldl_append, List.foldl_append, ← ofList, ← ofList,
        ← ih]
      exact hinsert m.1 m.2 _

end Members
end Json
end AwardsDesk
