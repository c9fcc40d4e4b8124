import AwardsDesk.Proofs.Gate.Ownership

/-!
# First come, first served

Seen from outside a gate is a plain list.  A request is live from its making until it
times out, is given up, or its ticket is given back.  The owner of the slot and the
waiters behind it are the live requests in the order in which they were made, and the
slot goes from request to request in that order.

Main definitions:

- Function {lit}`Gate.live`: the live requests, read off what callers did and were told.
- Function {lit}`Gate.grants`: the requests that came to own the slot, one after another.

Main results:

- Theorem {lit}`Gate.Coherent.line_step`: what an event does to the line.
- Theorem {lit}`Gate.first_come_run`: after any run the line is the list of live requests,
  and the slot was granted in the order of the requests.
-/

namespace AwardsDesk
namespace Gate

variable {g : Gate} {id : Nat}

/-! ## Live requests -/

/-- The request that is made in an event. -/
def joined : Event × Reply → Option Nat
  | (.acquire _, .admitted (.granted id)) => some id
  | (.acquire _, .admitted (.queued id)) => some id
  | _ => none

/-- The request that ends in an event: it times out, is given up, or its ticket is given
back. -/
def left : Event × Reply → Option Nat
  | (.resume _ id, .turned .timedOut) => some id
  | (.cancel id, .done) => some id
  | (.unlock id, .done) => some id
  | (.drop id, .done) => some id
  | _ => none

/-- The requests that were made and have not ended, in the order of their making. -/
def live (told : List (Event × Reply)) : List Nat :=
  (told.filterMap joined).filter fun id => id ∉ told.filterMap left

/-- The request that an event makes the owner of the slot. -/
def newGrant (g : Gate) (e : Event) : Option Nat :=
  if (g.step e).1.slot.grant = g.slot.grant then none else (g.step e).1.slot.grant

/-- The requests that come to own the slot in a run, one after another. -/
def grants (g : Gate) : List Event → List Nat
  | [] => []
  | e :: es => (g.newGrant e).toList ++ grants (g.step e).1 es

/-! ## One event -/

/-- A request made is told its number. -/
theorem joined_acquire (g : Gate) (now : Nat) :
    joined (.acquire now, (g.step (.acquire now)).2) = some g.slot.nextId := by
  simp only [step, acquire]
  split <;> rfl

/-- A ticket that is kept has its number among those of the tickets. -/
theorem hasTicket_iff : g.hasTicket id = true ↔ id ∈ g.ticketIds := by
  simp [hasTicket, ticketIds]

namespace Coherent

/-- A ticket given back is not in the line. -/
theorem notMem_line_of_released (h : g.Coherent) (hid : id ∈ g.ticketIds)
    (hphase : g.phase id = .released) : id ∉ g.slot.line := by
  rw [h.line_eq, List.mem_append, not_or]
  refine ⟨?_, h.kept.apart id hid⟩
  intro hmem
  rcases mem_holders.1 hmem with ⟨t, ht, hreleased, rfl⟩
  exact hreleased (phase_of_mem h.kept.nodup ht ▸ hphase)

/-- Only the owner gives the slot back, and leaves the head of the line. -/
theorem line_giveBack (h : g.Coherent) (hphase : g.phase id ≠ .released) :
    (g.slot.release id).line = g.slot.line.erase id := by
  rw [h.slot.line_release, if_pos (h.owner_of_phase hphase).1]

/-- A request made in an event joins the end of the line, one that ends in it leaves the
line, and nobody else moves. -/
theorem line_step (h : g.Coherent) (e : Event) :
    (g.step e).1.slot.line =
      match joined (e, (g.step e).2), left (e, (g.step e).2) with
      | some id, _ => g.slot.line ++ [id]
      | none, some id => g.slot.line.erase id
      | none, none => g.slot.line := by
  cases e with
  | acquire now =>
      rw [joined_acquire]
      exact (congrArg Slot.line (slot_acquire g now)).trans (Slot.line_request g.slot)
  | resume now id =>
      simp only [Gate.step]
      rcases resume_cases g now id with heq | ⟨-, -, heq⟩ | ⟨-, hg, heq⟩
      · rw [heq]
        rfl
      · rw [heq]
        rfl
      · rw [heq]
        exact Slot.line_dequeue_of_ne hg
  | cancel id =>
      by_cases hpending : g.isPending id = true
      · have hcancel : g.cancel id = { g.forget id with slot := g.slot.withdraw id } :=
          if_pos hpending
        simp only [Gate.step, hcancel, if_pos hpending]
        exact h.slot.line_withdraw id
      · have hcancel : g.cancel id = g := if_neg hpending
        simp only [Gate.step, hcancel, if_neg hpending]
        rfl
  | lock id =>
      rcases step_lock_cases g id with ⟨e, heq⟩ | ⟨-, -, heq⟩
      · rw [heq]
        rfl
      · rw [heq]
        rfl
  | unlock id =>
      rcases step_unlock_cases g id with ⟨e, heq⟩ | ⟨hphase, heq⟩
      · rw [heq]
        rfl
      · rw [heq]
        exact h.line_giveBack (by simp [hphase])
  | drop id =>
      by_cases hticket : g.hasTicket id = true
      · simp only [Gate.step, Gate.drop, if_pos hticket]
        by_cases hphase : g.phase id = .released
        · rw [if_pos hphase]
          exact (List.erase_of_not_mem
            (h.notMem_line_of_released (hasTicket_iff.1 hticket) hphase)).symm
        · rw [if_neg hphase]
          exact h.line_giveBack hphase
      · have hphase : g.phase id = .released := by
          by_contra hused
          rcases exists_ticket_of_phase hused with ⟨t, ht, hid, -⟩
          exact hticket (hasTicket_iff.2 (hid ▸ List.mem_map_of_mem ht))
        simp only [Gate.step, Gate.drop, if_neg hticket, if_pos hphase]
        rfl

end Coherent

/-! ## Numbers in a run -/

/-- Only an acquire makes a request, which takes the next number. -/
theorem eq_nextId_of_joined {e : Event} (h : joined (e, (g.step e).2) = some id) :
    id = g.slot.nextId ∧ (g.step e).1.slot.issued = g.slot.nextId ∧
      left (e, (g.step e).2) = none := by
  cases e with
  | acquire now =>
      rw [joined_acquire, Option.some.injEq] at h
      refine ⟨h.symm, ?_, rfl⟩
      exact (congrArg Slot.issued (slot_acquire g now)).trans (Slot.issued_request g.slot)
  | resume now id => simp [joined] at h
  | cancel id => simp [joined] at h
  | lock id => simp [joined] at h
  | unlock id => simp [joined] at h
  | drop id => simp [joined] at h

/-- No event takes a number back. -/
theorem issued_le_step (g : Gate) (e : Event) : g.slot.issued ≤ (g.step e).1.slot.issued := by
  cases e with
  | acquire now =>
      have hissued := (eq_nextId_of_joined (joined_acquire g now)).2.1
      rw [hissued]
      exact Nat.le_succ _
  | resume now id =>
      simp only [step]
      rcases resume_cases g now id with heq | ⟨-, -, heq⟩ | ⟨-, -, heq⟩ <;>
        exact heq ▸ Nat.le_refl _
  | cancel id =>
      simp only [step, cancel]
      split <;> simp
  | lock id =>
      rcases step_lock_cases g id with ⟨e, heq⟩ | ⟨-, -, heq⟩ <;>
        exact heq ▸ Nat.le_refl _
  | unlock id =>
      rcases step_unlock_cases g id with ⟨e, heq⟩ | ⟨-, heq⟩
      · exact heq ▸ Nat.le_refl _
      · simp [heq, setPhase]
  | drop id =>
      simp only [step, drop]
      split <;> simp

/-- The requests made in a run have new numbers. -/
theorem issued_lt_of_joined {es : List Event} {n : Nat}
    (hn : n ∈ (g.trace es).filterMap joined) : g.slot.issued < n := by
  induction es generalizing g with
  | nil => simp [trace] at hn
  | cons e es ih =>
      rw [trace, List.filterMap_cons] at hn
      cases hjoined : joined (e, (g.step e).2) with
      | none =>
          rw [hjoined] at hn
          have hstep := issued_le_step g e
          have hlater := ih hn
          omega
      | some id =>
          rcases eq_nextId_of_joined hjoined with ⟨rfl, hissued, -⟩
          rw [hjoined, List.mem_cons] at hn
          rcases hn with rfl | hn
          · exact Nat.lt_succ_self _
          · have hlt := ih hn
            have hstep := issued_le_step g e
            omega

namespace Coherent

/-- What ends in an event was made before. -/
theorem le_issued_of_left (h : g.Coherent) {e : Event}
    (hleft : left (e, (g.step e).2) = some id) : id ≤ g.slot.issued := by
  cases e with
  | acquire now => simp [left] at hleft
  | resume now n =>
      simp only [Gate.step] at hleft
      rcases resume_cases g now n with heq | ⟨-, -, heq⟩ | ⟨hn, -, heq⟩
      · simp [heq, left] at hleft
      · simp [heq, left] at hleft
      · obtain rfl : n = id := by simpa [heq, left] using hleft
        exact h.pending_le_issued hn
  | cancel n =>
      by_cases hpending : g.isPending n = true
      · obtain rfl : n = id := by simpa [Gate.step, hpending, left] using hleft
        exact h.pending_le_issued (isPending_iff.1 hpending)
      · simp [Gate.step, hpending, left] at hleft
  | lock n =>
      simp only [Gate.step] at hleft
      cases g.lock n <;> simp [left] at hleft
  | unlock n =>
      rcases step_unlock_cases g n with ⟨e, heq⟩ | ⟨hphase, heq⟩
      · simp [heq, left] at hleft
      · obtain rfl : n = id := by simpa [heq, left] using hleft
        have hused : g.phase n ≠ .released := by simp [hphase]
        rcases exists_ticket_of_phase hused with ⟨t, ht, rfl, -⟩
        exact h.kept.le_issued _ (List.mem_map_of_mem ht)
  | drop n =>
      by_cases hticket : g.hasTicket n = true
      · obtain rfl : n = id := by simpa [Gate.step, hticket, left] using hleft
        exact h.kept.le_issued n (hasTicket_iff.1 hticket)
      · simp [Gate.step, hticket, left] at hleft

/-! ## Runs -/

/-- After a run the line holds those who were in it before or were made since, without
those who have ended. -/
theorem line_run (h : g.Coherent) (es : List Event) :
    (g.run es).slot.line =
      (g.slot.line ++ (g.trace es).filterMap joined).filter
        fun id => id ∉ (g.trace es).filterMap left := by
  induction es generalizing g with
  | nil => simp [trace]
  | cons e es ih =>
      rw [run_cons, ih (h.step e), h.line_step e, trace, List.filterMap_cons, List.filterMap_cons]
      cases hjoined : joined (e, (g.step e).2) with
      | some id =>
          rw [(eq_nextId_of_joined hjoined).2.2]
          simp
      | none =>
          cases hleft : left (e, (g.step e).2) with
          | none => rfl
          | some id =>
              -- Requests made later have other numbers than the one that ended.
              have hlater : ∀ n ∈ ((g.step e).1.trace es).filterMap joined, n ≠ id := by
                intro n hn
                have hlt := issued_lt_of_joined hn
                have hold := h.le_issued_of_left hleft
                have hstep := issued_le_step g e
                omega
              simp only [h.slot.nodup.erase_eq_filter, List.filter_append, List.filter_filter]
              congr 1
              · refine List.filter_congr fun n _ => ?_
                rw [Bool.and_comm]
                by_cases hid : n = id <;> simp [hid, bne]
              · refine List.filter_congr fun n hn => ?_
                simp [hlater n hn]

/-- Nobody joins the line but a new request. -/
theorem mem_line_of_step (h : g.Coherent) {e : Event} {n : Nat}
    (hn : n ∈ (g.step e).1.slot.line) : n ∈ g.slot.line ∨ g.slot.issued < n := by
  rw [h.line_step e] at hn
  cases hjoined : joined (e, (g.step e).2) with
  | some id =>
      rcases eq_nextId_of_joined hjoined with ⟨rfl, -, -⟩
      rw [hjoined, List.mem_append, List.mem_singleton] at hn
      rcases hn with hold | rfl
      · exact Or.inl hold
      · exact Or.inr (Nat.lt_succ_self _)
  | none =>
      rw [hjoined] at hn
      cases hleft : left (e, (g.step e).2) with
      | none => exact Or.inl (by rwa [hleft] at hn)
      | some id =>
          rw [hleft] at hn
          exact Or.inl (List.mem_of_mem_erase hn)

/-- The owner of the slot is the first in the line. -/
theorem grant_le (h : g.Coherent) (hg : g.slot.grant = some id) {n : Nat}
    (hn : n ∈ g.slot.line) : id ≤ n := by
  have hsorted := h.slot.sorted
  rw [Slot.line, hg] at hsorted hn
  rcases List.mem_cons.1 hn with rfl | hn
  · exact Nat.le_refl _
  · exact Nat.le_of_lt ((List.pairwise_cons.1 hsorted).1 n hn)

/-- When all who wait came after a number, the slot is granted to them in the order of
their coming. -/
theorem pairwise_grants (h : g.Coherent) {m : Nat} (hm : m ≤ g.slot.issued)
    (hwait : ∀ n ∈ g.slot.line, g.slot.grant ≠ some n → m < n) (es : List Event) :
    (m :: g.grants es).Pairwise (· < ·) := by
  induction es generalizing g m with
  | nil => simp [grants]
  | cons e es ih =>
      have hstep := issued_le_step g e
      have hmstep : m ≤ (g.step e).1.slot.issued := by omega
      rw [grants]
      cases hnew : g.newGrant e with
      | none =>
          refine ih (h.step e) hmstep fun n hn hne => ?_
          rcases h.mem_line_of_step hn with hold | hlate
          · refine hwait n hold fun hg => ?_
            -- The old owner is still in the line, so the slot has an owner.
            unfold newGrant at hnew
            split at hnew
            · rename_i hsame
              exact hne (hsame.trans hg)
            · rw [(h.step e).slot.line_of_grant_none hnew] at hn
              simp at hn
          · omega
      | some id =>
          have hgrant : (g.step e).1.slot.grant = some id ∧ g.slot.grant ≠ some id := by
            unfold newGrant at hnew
            split at hnew
            · simp at hnew
            · rename_i hne
              exact ⟨hnew, fun hg => hne (hnew.trans hg.symm)⟩
          have hmem : id ∈ (g.step e).1.slot.line := Slot.mem_line_of_grant hgrant.1
          have hlt : m < id := by
            rcases h.mem_line_of_step hmem with hold | hlate
            · exact hwait id hold hgrant.2
            · omega
          have hrest : (id :: (g.step e).1.grants es).Pairwise (· < ·) := by
            refine ih (h.step e) ((h.step e).slot.le_issued id hmem) fun n hn hne => ?_
            refine Nat.lt_of_le_of_ne ((h.step e).grant_le hgrant.1 hn) fun heq => ?_
            exact hne (heq ▸ hgrant.1)
          rw [Option.toList_some, List.singleton_append, List.pairwise_cons]
          refine ⟨fun n hn => ?_, hrest⟩
          rcases List.mem_cons.1 hn with rfl | hn
          · exact hlt
          · have hnext := (List.pairwise_cons.1 hrest).1 n hn
            omega

end Coherent

/-! ## First come, first served -/

/-- The line of a gate is the list of live requests in the order of their making.  A
request made joins it at the end, one that ends leaves it, and nothing else changes it;
and the slot goes through it from the front to the back. -/
theorem first_come_run (name : String) (options : Options) (es : List Event) :
    let new : Gate := { name, options }
    let g := new.run es
    g.slot.line = live (new.trace es) ∧
      (∀ now, joined (.acquire now, (g.step (.acquire now)).2) = some g.slot.nextId ∧
        (g.step (.acquire now)).1.slot.line = g.slot.line ++ [g.slot.nextId]) ∧
      (∀ e id, left (e, (g.step e).2) = some id →
        (g.step e).1.slot.line = g.slot.line.erase id) ∧
      (∀ e, joined (e, (g.step e).2) = none → left (e, (g.step e).2) = none →
        (g.step e).1.slot.line = g.slot.line) ∧
      (new.grants es).Pairwise (· < ·) ∧
      (∀ id, g.slot.grant = some id →
        id ∈ live (new.trace es) ∧ ∀ other ∈ live (new.trace es), id ≤ other) := by
  intro new g
  have hnew : new.Coherent := coherent_initial name options
  have hg : g.Coherent := hnew.run es
  have hline : g.slot.line = live (new.trace es) := hnew.line_run es
  refine ⟨hline, ?_, ?_, ?_, ?_, ?_⟩
  · intro now
    refine ⟨joined_acquire g now, ?_⟩
    rw [hg.line_step, joined_acquire]
  · intro e id hleft
    have hjoined : joined (e, (g.step e).2) = none := by
      cases hjoined : joined (e, (g.step e).2) with
      | none => rfl
      | some n => simp [(eq_nextId_of_joined hjoined).2.2] at hleft
    rw [hg.line_step, hjoined, hleft]
  · intro e hjoined hleft
    rw [hg.line_step, hjoined, hleft]
  · have hsorted : (0 :: new.grants es).Pairwise (· < ·) :=
      hnew.pairwise_grants (Nat.zero_le _) (by simp [new, Slot.line]) es
    exact (List.pairwise_cons.1 hsorted).2
  · intro id hid
    rw [← hline]
    exact ⟨by simp [Slot.line, hid], fun other hother => hg.grant_le hid hother⟩

end Gate
end AwardsDesk
