import AwardsDesk.Gate.Slot

/-!
# Lines in order

The owner of a slot and the waiters behind it stand in a line in which requests are
numbered in the order of their coming.  The operations on a slot keep the line in
order: a request joins it at the end, and whoever leaves it does not move the others.

Main definitions:

- Structure {lit}`Slot.Ordered`: the invariant of a slot.

Main results:

- Theorems {lit}`Slot.Ordered.request`, {lit}`Slot.Ordered.dequeue`,
  {lit}`Slot.Ordered.release` and {lit}`Slot.Ordered.lock`: every operation keeps it.
- Theorems {lit}`Slot.Ordered.line_release` and {lit}`Slot.Ordered.line_withdraw`: to
  end a request is to erase it from the line.
-/

namespace AwardsDesk
namespace Gate

namespace Slot

/-! ## The invariant -/

/-- The line of a slot is in order. -/
structure Ordered (s : Slot) : Prop where
  /-- Requests stand in the line in the order of their numbers, which is that of their
  coming. -/
  sorted : s.line.Pairwise (· < ·)
  /-- Every request in the line has been made. -/
  le_issued : ∀ id ∈ s.line, id ≤ s.issued
  /-- Somebody stands behind every waiter. -/
  live : ∀ w ∈ s.waiters, w.live = true
  /-- Nobody waits for a slot without an owner. -/
  idle : s.grant = none → s.waiters = []
  /-- A slot without an owner does not show as locked. -/
  owned : s.locked = true → s.grant ≠ none

variable {s : Slot}

/-- A slot that nobody has asked for. -/
theorem ordered_initial : Ordered {} where
  sorted := by simp [line]
  le_issued := by simp [line]
  live := by simp
  idle := fun _ => rfl
  owned := by simp

/-- The owner of the slot is in the line. -/
theorem mem_line_of_grant {id : Nat} (hg : s.grant = some id) : id ∈ s.line := by
  simp [line, hg]

/-- A request is counted. -/
@[simp]
theorem issued_request (s : Slot) : s.request.issued = s.nextId := by
  unfold request
  split <;> rfl

/-- Giving the slot back makes no request. -/
@[simp]
theorem issued_release (s : Slot) (id : Nat) : (s.release id).issued = s.issued := by
  unfold release handOver
  split
  · split <;> rfl
  · rfl

/-- Giving a request up makes none. -/
@[simp]
theorem issued_withdraw (s : Slot) (id : Nat) : (s.withdraw id).issued = s.issued := by
  unfold withdraw
  split
  · rfl
  · exact issued_release s id

/-- To leave the queue is to leave the line, for all but the owner. -/
theorem line_dequeue_of_ne {id : Nat} (hg : s.grant ≠ some id) :
    (s.dequeue id).line = s.line.erase id := by
  have hnot : id ∉ s.grant.toList := by
    simpa [Option.mem_toList] using hg
  rw [line_dequeue, line, List.erase_append_right _ hnot]

namespace Ordered

/-- Nobody stands in the line twice. -/
theorem nodup (h : s.Ordered) : s.line.Nodup :=
  h.sorted.imp Nat.ne_of_lt

/-- Nobody waits twice. -/
theorem nodup_waiters (h : s.Ordered) : (s.waiters.map Waiter.id).Nodup :=
  (List.nodup_append.1 h.nodup).2.1

/-- The owner is not in the queue. -/
theorem grant_notMem (h : s.Ordered) {id : Nat} (hg : s.grant = some id) :
    id ∉ s.waiters.map Waiter.id := by
  have hnodup := h.nodup
  rw [line, hg] at hnodup
  exact (List.nodup_cons.1 hnodup).1

/-- Without an owner the line is empty. -/
theorem line_of_grant_none (h : s.Ordered) (hg : s.grant = none) : s.line = [] := by
  simp [line, hg, h.idle hg]

/-- The slot is free when it has no owner. -/
theorem isFree_iff (h : s.Ordered) : s.isFree = true ↔ s.grant = none := by
  constructor
  · intro hfree
    simp only [isFree, Bool.and_eq_true, Option.isNone_iff_eq_none] at hfree
    exact hfree.1
  · intro hg
    simp [isFree, hg, h.idle hg]

/-! ## What the operations do to the line -/

/-- When the owner gives the slot back, it falls to the next in line and stays locked;
with nobody waiting it falls to none. -/
theorem release_eq (h : s.Ordered) {id : Nat} (hg : s.grant = some id) :
    s.release id =
      { s with
        locked := !s.waiters.isEmpty
        grant := s.waiters.head?.map Waiter.id
        waiters := s.waiters.tail } := by
  have hdrop : s.waiters.dropWhile (!·.live) = s.waiters := by
    cases hw : s.waiters with
    | nil => rfl
    | cons w rest =>
        have hlive : w.live = true := h.live w (by simp [hw])
        simp [hlive]
  rw [release, if_pos hg, handOver, hdrop]
  cases hw : s.waiters <;> simp

/-- To give the slot back is to leave the head of the line. -/
theorem line_release (h : s.Ordered) (id : Nat) :
    (s.release id).line = if s.grant = some id then s.line.erase id else s.line := by
  split
  · rename_i hg
    rw [h.release_eq hg, line, line, hg]
    cases hw : s.waiters <;> simp
  · rename_i hg
    rw [release_of_ne hg]

/-- A request that is given up leaves the line, and nobody else moves. -/
theorem line_withdraw (h : s.Ordered) (id : Nat) :
    (s.withdraw id).line = s.line.erase id := by
  rw [withdraw]
  split
  · rename_i hqueued
    refine line_dequeue_of_ne fun hg => h.grant_notMem hg ?_
    simpa [isQueued] using hqueued
  · rename_i hqueued
    rw [h.line_release]
    split
    · rfl
    · rename_i hg
      symm
      apply List.erase_of_not_mem
      rw [line, List.mem_append, not_or]
      exact ⟨by simpa [Option.mem_toList] using hg, by simpa [isQueued] using hqueued⟩

/-! ## The operations keep the line in order -/

/-- A new request keeps the line in order. -/
theorem request (h : s.Ordered) : s.request.Ordered := by
  refine ⟨?_, ?_, ?_, ?_, ?_⟩
  · rw [line_request, List.pairwise_append]
    refine ⟨h.sorted, by simp, ?_⟩
    intro a ha b hb
    rw [List.mem_singleton.1 hb]
    exact Nat.lt_succ_of_le (h.le_issued a ha)
  · intro id hid
    rw [line_request, List.mem_append, List.mem_singleton] at hid
    rw [issued_request]
    rcases hid with hold | rfl
    · exact Nat.le_succ_of_le (h.le_issued id hold)
    · exact Nat.le_refl _
  · intro w hw
    unfold Slot.request at hw
    split at hw
    · exact h.live w hw
    · rcases List.mem_append.1 hw with hold | hnew
      · exact h.live w hold
      · rw [List.mem_singleton.1 hnew]
  · intro hg
    unfold Slot.request at hg
    split at hg
    · simp at hg
    · rename_i hfree
      exact absurd (h.isFree_iff.2 hg) hfree
  · intro hlocked
    unfold Slot.request at hlocked ⊢
    split <;> rename_i hfree
    · simp
    · rw [if_neg hfree] at hlocked
      exact h.owned hlocked

/-- A slot stays in order when some leave its line, nobody new is in its queue, and its
owner and its lock go together. -/
theorem of_sublist (h : s.Ordered) {t : Slot} (hline : t.line.Sublist s.line)
    (hwaiters : t.waiters ⊆ s.waiters) (hissued : t.issued = s.issued)
    (hidle : t.grant = none → t.waiters = []) (howned : t.locked = true → t.grant ≠ none) :
    t.Ordered where
  sorted := h.sorted.sublist hline
  le_issued id hid := hissued ▸ h.le_issued id (hline.subset hid)
  live w hw := h.live w (hwaiters hw)
  idle := hidle
  owned := howned

/-- Leaving the queue keeps the line in order. -/
theorem dequeue (h : s.Ordered) (id : Nat) : (s.dequeue id).Ordered := by
  have hsub : (s.dequeue id).waiters.Sublist s.waiters := List.eraseP_sublist
  refine h.of_sublist ?_ hsub.subset rfl ?_ h.owned
  · exact (hsub.map Waiter.id).append_left s.grant.toList
  · intro hg
    have hnil : s.waiters = [] := h.idle hg
    simp [Slot.dequeue, hnil]

/-- Giving the slot back keeps the line in order. -/
theorem release (h : s.Ordered) (id : Nat) : (s.release id).Ordered := by
  by_cases hg : s.grant = some id
  · refine h.of_sublist ?_ ?_ ?_ ?_ ?_
    · rw [h.line_release, if_pos hg]
      exact List.erase_sublist
    · rw [h.release_eq hg]
      exact (List.tail_sublist s.waiters).subset
    · rw [h.release_eq hg]
    · rw [h.release_eq hg]
      cases hw : s.waiters <;> simp
    · rw [h.release_eq hg]
      cases hw : s.waiters <;> simp
  · rwa [release_of_ne hg]

/-- A request that is given up leaves the line in order. -/
theorem withdraw (h : s.Ordered) (id : Nat) : (s.withdraw id).Ordered := by
  unfold Slot.withdraw
  split
  · exact h.dequeue id
  · exact h.release id

/-- The owner locks the slot, which keeps the line in order. -/
theorem lock (h : s.Ordered) (hg : s.grant ≠ none) : s.lock.Ordered where
  sorted := h.sorted
  le_issued := h.le_issued
  live := h.live
  idle := h.idle
  owned := fun _ => hg

end Ordered
end Slot
end Gate
end AwardsDesk
