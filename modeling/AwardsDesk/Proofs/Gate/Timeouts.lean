import AwardsDesk.Proofs.Gate.Turns

/-!
# Timeouts

A request that has to wait gives up when the timeout of its gate has passed.  Whether it
does is settled when it goes on: the slot is looked at before the clock, so a request that
was granted the slot becomes a ticket however late it is, and any other request times out
from its deadline on and not before.  A request that has timed out is gone for good, and
nobody else notices.

Main definitions:

- Functions {lit}`Gate.Event.time?` and {lit}`Gate.Event.served?`: when an event happens,
  and the waiting request that it lets go on or gives up.
- Structure {lit}`Gate.ExactTimeouts`: what becomes of the requests that wait.

Main results:

- Theorem {lit}`Gate.Coherent.mem_grants_iff`: a request in hand that was ever granted the
  slot still owns it.
- Theorem {lit}`Gate.Coherent.lt_deadline_of_served`: who has been served and still waits
  has time left.
- Theorem {lit}`Gate.exactTimeouts`: the timeouts of every run are exact.
-/

namespace AwardsDesk
namespace Gate

variable {g : Gate} {id : Nat}

/-! ## Times -/

/-- The time at which an event happens, if it looks at the clock. -/
def Event.time? : Event → Option Nat
  | .acquire now | .resume now _ => some now
  | _ => none

/-- The waiting request that goes on in an event or is given up in it. -/
def Event.served? : Event → Option Nat
  | .resume _ id | .cancel id => some id
  | _ => none

/-- A run in which the clock never goes back. -/
def Timely (es : List Event) : Prop :=
  (es.filterMap Event.time?).Pairwise (· ≤ ·)

instance (es : List Event) : Decidable (Timely es) :=
  inferInstanceAs (Decidable ((es.filterMap Event.time?).Pairwise (· ≤ ·)))

/-- The longest wait at a gate, in milliseconds. -/
def patience (g : Gate) : Nat :=
  g.options.timeoutMs.toNat

/-- A request that asked for the gate at a time and had to queue. -/
def QueuedAt (told : List (Event × Reply)) (id t : Nat) : Prop :=
  (.acquire t, .admitted (.queued id)) ∈ told

/-- What is told in a run is told of its events. -/
theorem mem_of_mem_trace {es : List Event} {e : Event} {r : Reply} (h : (e, r) ∈ g.trace es) :
    e ∈ es := by
  induction es generalizing g with
  | nil => simp [trace] at h
  | cons e' es ih =>
      rw [trace, List.mem_cons] at h
      rcases h with hnow | hlater
      · obtain rfl : e = e' := congrArg Prod.fst hnow
        exact List.mem_cons_self
      · exact List.mem_cons_of_mem _ (ih hlater)

/-! ## Settings -/

/-- No event changes the name or the options of a gate. -/
theorem settings_step (g : Gate) (e : Event) :
    (g.step e).1.name = g.name ∧ (g.step e).1.options = g.options := by
  cases e with
  | acquire now =>
      simp only [step, acquire]
      split <;> exact ⟨rfl, rfl⟩
  | resume now id =>
      simp only [step]
      rcases resume_cases g now id with heq | ⟨-, -, heq⟩ | ⟨-, -, heq⟩ <;>
        exact heq ▸ ⟨rfl, rfl⟩
  | cancel id =>
      simp only [step, cancel]
      split <;> exact ⟨rfl, rfl⟩
  | lock id =>
      rcases step_lock_cases g id with ⟨e, heq⟩ | ⟨-, -, heq⟩ <;>
        exact heq ▸ ⟨rfl, rfl⟩
  | unlock id =>
      rcases step_unlock_cases g id with ⟨e, heq⟩ | ⟨-, heq⟩ <;>
        exact heq ▸ ⟨rfl, rfl⟩
  | drop id => exact ⟨rfl, rfl⟩

/-- No run changes the name or the options of a gate. -/
theorem settings_run (g : Gate) (es : List Event) :
    (g.run es).name = g.name ∧ (g.run es).options = g.options := by
  refine run_induction (P := fun g' => g'.name = g.name ∧ g'.options = g.options) ?_ ⟨rfl, rfl⟩ es
  intro g' e h
  have hstep := settings_step g' e
  exact ⟨hstep.1.trans h.1, hstep.2.trans h.2⟩

/-- The longest wait stays the same. -/
theorem patience_step (g : Gate) (e : Event) : (g.step e).1.patience = g.patience := by
  rw [patience, (settings_step g e).2, patience]

/-! ## Deadlines -/

/-- In an event requests in hand come to an end, or one that has to wait joins them with
its deadline. -/
theorem waiting_step (g : Gate) (e : Event) :
    (g.step e).1.waiting.Sublist g.waiting ∨
      ∃ now, e = .acquire now ∧ (g.step e).2 = .admitted (.queued g.slot.nextId) ∧
        (g.step e).1.waiting =
          g.waiting ++ [{ id := g.slot.nextId, deadline := now + g.patience }] := by
  cases e with
  | acquire now =>
      by_cases hfree : g.slot.isFree = true
      · left
        simp [step, acquire, hfree]
      · right
        exact ⟨now, rfl, by simp [step, acquire, hfree], by simp [step, acquire, hfree, patience]⟩
  | resume now id =>
      left
      simp only [step]
      rcases resume_cases g now id with heq | ⟨-, -, heq⟩ | ⟨-, -, heq⟩
      · rw [heq]
      · rw [heq]
        exact List.eraseP_sublist
      · rw [heq]
        exact List.eraseP_sublist
  | cancel id =>
      left
      simp only [step, cancel]
      split
      · exact List.eraseP_sublist
      · exact List.Sublist.refl _
  | lock id =>
      left
      rcases step_lock_cases g id with ⟨e, heq⟩ | ⟨-, -, heq⟩ <;>
        exact heq ▸ List.Sublist.refl _
  | unlock id =>
      left
      rcases step_unlock_cases g id with ⟨e, heq⟩ | ⟨-, heq⟩ <;>
        exact heq ▸ List.Sublist.refl _
  | drop id => exact Or.inl (List.Sublist.refl _)

/-- Who waits after a run waited before it, or queued in it and has the deadline set then. -/
theorem mem_waiting_run {es : List Event} {w : Waiting} (hw : w ∈ (g.run es).waiting) :
    w ∈ g.waiting ∨
      (g.slot.issued < w.id ∧ ∃ t, QueuedAt (g.trace es) w.id t ∧ w.deadline = t + g.patience) := by
  induction es generalizing g with
  | nil => exact Or.inl hw
  | cons e es ih =>
      rcases ih hw with hold | ⟨hlate, t, hqueued, hdeadline⟩
      · rcases waiting_step g e with hsub | ⟨now, rfl, hreply, hjoin⟩
        · exact Or.inl (hsub.subset hold)
        · rw [hjoin, List.mem_append, List.mem_singleton] at hold
          rcases hold with hold | rfl
          · exact Or.inl hold
          · refine Or.inr ⟨Nat.lt_succ_self _, now, ?_, rfl⟩
            rw [QueuedAt, trace, hreply]
            exact List.mem_cons_self
      · right
        refine ⟨Nat.lt_of_le_of_lt (issued_le_step g e) hlate, t, ?_, ?_⟩
        · exact List.mem_cons_of_mem _ hqueued
        · rw [hdeadline, patience_step]

/-- Who was made before a run and waits after it waited before it. -/
theorem mem_waiting_of_le {es : List Event} {w : Waiting} (hw : w ∈ (g.run es).waiting)
    (hle : w.id ≤ g.slot.issued) : w ∈ g.waiting := by
  rcases mem_waiting_run hw with hold | ⟨hlate, -⟩
  · exact hold
  · omega

/-- Nobody queues under the same number twice. -/
theorem queuedAt_unique {es : List Event} {t u : Nat} (ht : QueuedAt (g.trace es) id t)
    (hu : QueuedAt (g.trace es) id u) : t = u := by
  induction es generalizing g with
  | nil => simp [QueuedAt, trace] at ht
  | cons e es ih =>
      -- A request told in the rest of the run has a greater number than one told now.
      have hlater : ∀ v, QueuedAt ((g.step e).1.trace es) id v →
          joined (e, (g.step e).2) ≠ some id := by
        intro v hv hjoined
        have hmem : id ∈ ((g.step e).1.trace es).filterMap joined :=
          List.mem_filterMap.2 ⟨_, hv, rfl⟩
        have hlt := issued_lt_of_joined hmem
        rcases eq_nextId_of_joined hjoined with ⟨rfl, hissued, -⟩
        omega
      have hfirst : ∀ v, (Event.acquire v, Reply.admitted (.queued id)) = (e, (g.step e).2) →
          joined (e, (g.step e).2) = some id := by
        intro v hv
        rw [← hv]
        rfl
      rw [QueuedAt, trace, List.mem_cons] at ht hu
      rcases ht with ht | ht <;> rcases hu with hu | hu
      · have heq := congrArg Prod.fst (ht.trans hu.symm)
        simpa using heq
      · exact absurd (hfirst t ht) (hlater u hu)
      · exact absurd (hfirst u hu) (hlater t ht)
      · exact ih ht hu

/-- When the clock never goes back, deadlines do not decrease in the order of coming. -/
theorem pairwise_deadlines {now : Nat} {es : List Event}
    (hsorted : g.waiting.Pairwise fun v w => v.deadline ≤ w.deadline)
    (hbound : ∀ w ∈ g.waiting, w.deadline ≤ now + g.patience)
    (htimely : (now :: es.filterMap Event.time?).Pairwise (· ≤ ·)) :
    (g.run es).waiting.Pairwise fun v w => v.deadline ≤ w.deadline := by
  induction es generalizing g now with
  | nil => exact hsorted
  | cons e es ih =>
      rcases waiting_step g e with hsub | ⟨later, rfl, -, hjoin⟩
      · have htimes : (now :: es.filterMap Event.time?).Pairwise (· ≤ ·) := by
          refine htimely.sublist (List.Sublist.cons_cons now ?_)
          exact (List.sublist_cons_self e es).filterMap _
        refine ih (hsorted.sublist hsub) ?_ htimes
        intro w hw
        rw [patience_step]
        exact hbound w (hsub.subset hw)
      · have htimes : (Event.acquire later :: es).filterMap Event.time? =
            later :: es.filterMap Event.time? := rfl
        rw [htimes, List.pairwise_cons] at htimely
        have hnow : now ≤ later := htimely.1 later List.mem_cons_self
        refine ih ?_ ?_ htimely.2
        · rw [hjoin, List.pairwise_append]
          refine ⟨hsorted, List.pairwise_singleton _ _, ?_⟩
          intro v hv w hw
          have hle := hbound v hv
          rw [List.mem_singleton.1 hw]
          change v.deadline ≤ later + g.patience
          omega
        · intro w hw
          rw [patience_step]
          rw [hjoin, List.mem_append, List.mem_singleton] at hw
          rcases hw with hold | rfl
          · have hle := hbound w hold
            omega
          · exact Nat.le_refl _

/-! ## Grants -/

/-- The slot is granted in a run as it is in its parts. -/
theorem grants_append (g : Gate) (es more : List Event) :
    g.grants (es ++ more) = g.grants es ++ (g.run es).grants more := by
  induction es generalizing g with
  | nil => rfl
  | cons e es ih => rw [List.cons_append, grants, grants, ih, run_cons, List.append_assoc]

/-- Who owns the slot after a run owned it before, or came to own it in the run. -/
theorem mem_grants_of_grant {es : List Event} (hg : (g.run es).slot.grant = some id) :
    g.slot.grant = some id ∨ id ∈ g.grants es := by
  induction es generalizing g with
  | nil => exact Or.inl hg
  | cons e es ih =>
      rw [grants, List.mem_append]
      rcases ih hg with hnow | hlater
      · rcases newGrant_cases g e with hnew | ⟨-, hsame⟩
        · right
          left
          rw [hnew, hnow]
          exact List.mem_singleton_self id
        · left
          exact hsame ▸ hnow
      · exact Or.inr (Or.inr hlater)

/-- Who came to own the slot in a run owned it at some time in the run. -/
theorem exists_of_mem_grants {es : List Event} (hid : id ∈ g.grants es) :
    ∃ pre post, es = pre ++ post ∧ (g.run pre).slot.grant = some id := by
  induction es generalizing g with
  | nil => simp [grants] at hid
  | cons e es ih =>
      rw [grants, List.mem_append] at hid
      rcases hid with hnow | hlater
      · refine ⟨[e], es, rfl, ?_⟩
        rcases newGrant_cases g e with hnew | ⟨hnone, -⟩
        · rw [hnew, Option.mem_toList] at hnow
          exact hnow
        · simp [hnone] at hnow
      · rcases ih hlater with ⟨pre, post, rfl, hg⟩
        exact ⟨e :: pre, post, rfl, hg⟩

namespace Coherent

/-- Requests in hand are in the line. -/
theorem pending_subset_line (h : g.Coherent) : g.pending ⊆ g.slot.line := by
  rw [h.line_eq]
  exact List.subset_append_right _ _

/-- Who was made before a run and is in the line after it was in the line before it. -/
theorem mem_line_of_run (h : g.Coherent) {es : List Event} (hid : id ≤ g.slot.issued)
    (hmem : id ∈ (g.run es).slot.line) : id ∈ g.slot.line := by
  induction es generalizing g with
  | nil => exact hmem
  | cons e es ih =>
      have hstep := ih (h.step e) (Nat.le_trans hid (issued_le_step g e)) hmem
      rcases h.mem_line_of_step hstep with hold | hlate
      · exact hold
      · omega

/-- The owner of the slot owns it as long as it is in the line. -/
theorem grant_step_of_mem (h : g.Coherent) {e : Event} (hg : g.slot.grant = some id)
    (hmem : id ∈ (g.step e).1.slot.line) : (g.step e).1.slot.grant = some id := by
  have hissued : id ≤ g.slot.issued := h.slot.le_issued id (Slot.mem_line_of_grant hg)
  cases hgrant : (g.step e).1.slot.grant with
  | none =>
      rw [(h.step e).slot.line_of_grant_none hgrant] at hmem
      simp at hmem
  | some n =>
      -- The new owner is first in the line, and it cannot have come after the old one.
      have hn : n ∈ (g.step e).1.slot.line := Slot.mem_line_of_grant hgrant
      have hle : n ≤ id := (h.step e).grant_le hgrant hmem
      have hge : id ≤ n := by
        rcases h.mem_line_of_step hn with hold | hlate
        · exact h.grant_le hg hold
        · omega
      rw [Nat.le_antisymm hle hge]

/-- The owner of the slot owns it through a run as long as it is in the line. -/
theorem grant_run_of_mem (h : g.Coherent) {es : List Event} (hg : g.slot.grant = some id)
    (hmem : id ∈ (g.run es).slot.line) : (g.run es).slot.grant = some id := by
  induction es generalizing g with
  | nil => exact hg
  | cons e es ih =>
      have hmine : id ≤ g.slot.issued := h.slot.le_issued id (Slot.mem_line_of_grant hg)
      have hissued : id ≤ (g.step e).1.slot.issued := Nat.le_trans hmine (issued_le_step g e)
      have hstep : id ∈ (g.step e).1.slot.line := (h.step e).mem_line_of_run hissued hmem
      exact ih (h.step e) (h.grant_step_of_mem hg hstep) hmem

/-- A request in hand that was granted the slot in a run still owns it. -/
theorem mem_grants_iff (h : g.Coherent) (hg : g.slot.grant = none) {es : List Event}
    (hid : id ∈ (g.run es).pending) :
    id ∈ g.grants es ↔ (g.run es).slot.grant = some id := by
  constructor
  · intro hmem
    rcases exists_of_mem_grants hmem with ⟨pre, post, rfl, hgrant⟩
    rw [run_append] at hid ⊢
    have hpre : (g.run pre).Coherent := h.run pre
    exact hpre.grant_run_of_mem hgrant ((hpre.run post).pending_subset_line hid)
  · intro hgrant
    rcases mem_grants_of_grant hgrant with hold | hmem
    · rw [hg] at hold
      simp at hold
    · exact hmem

/-! ## Requests that go on -/

/-- A request in hand that goes on: the slot is looked at first, then the clock. -/
theorem resume_eq (h : g.Coherent) {w : Waiting} (hw : w ∈ g.waiting) (now : Nat) :
    g.resume now w.id =
      if g.slot.grant = some w.id then
        ({ g.forget w.id with tickets := g.tickets ++ [{ id := w.id }] }, .granted)
      else if w.deadline ≤ now then
        ({ g.forget w.id with slot := g.slot.dequeue w.id }, .timedOut)
      else (g, .waiting) := by
  have hfind : g.waiting.find? (·.id == w.id) = some w :=
    find?_key_eq_some h.nodup_pending hw
  rw [Gate.resume, hfind]

/-- A request that is served comes to its end, or waits on with time left. -/
theorem lt_deadline_of_served (h : g.Coherent) {e : Event} {w : Waiting} {now : Nat}
    (hserved : e.served? = some w.id) (htime : ∀ t, e.time? = some t → now ≤ t)
    (hw : w ∈ g.waiting) (hstill : w ∈ (g.step e).1.waiting) : now < w.deadline := by
  have hgone : ∀ g' : Gate, g'.waiting = (g.forget w.id).waiting → w ∉ g'.waiting := by
    intro g' heq hmem
    have hmem : w.id ∈ (g.forget w.id).pending := List.mem_map_of_mem (heq ▸ hmem)
    rw [pending_forget] at hmem
    exact h.nodup_pending.not_mem_erase hmem
  cases e with
  | resume t id =>
      obtain rfl : id = w.id := by simpa [Event.served?] using hserved
      have hnow : now ≤ t := htime t rfl
      rw [Gate.step, h.resume_eq hw] at hstill
      split at hstill
      · exact absurd hstill (hgone _ rfl)
      · split at hstill
        · exact absurd hstill (hgone _ rfl)
        · omega
  | cancel id =>
      obtain rfl : id = w.id := by simpa [Event.served?] using hserved
      have hpending : g.isPending w.id = true := isPending_iff.2 (List.mem_map_of_mem hw)
      have hcancel : g.cancel w.id = { g.forget w.id with slot := g.slot.withdraw w.id } :=
        if_pos hpending
      rw [Gate.step, hcancel] at hstill
      exact absurd hstill (hgone _ rfl)
  | acquire t => simp [Event.served?] at hserved
  | lock id => simp [Event.served?] at hserved
  | unlock id => simp [Event.served?] at hserved
  | drop id => simp [Event.served?] at hserved

/-- When all who waited are served at a time or later, who waits then has time left. -/
theorem lt_deadline_of_run (h : g.Coherent) (husable : g.options.Usable) {now : Nat}
    {es : List Event} (htime : ∀ e ∈ es, ∀ t, e.time? = some t → now ≤ t) {w : Waiting}
    (hserved : w ∈ g.waiting → ∃ e ∈ es, e.served? = some w.id)
    (hw : w ∈ (g.run es).waiting) : now < w.deadline := by
  rcases mem_waiting_run hw with hold | ⟨-, t, hqueued, hdeadline⟩
  · rcases hserved hold with ⟨e, he, hid⟩
    rcases List.append_of_mem he with ⟨pre, post, rfl⟩
    rw [run_append, run_cons] at hw
    have hissued : w.id ≤ (g.run pre).slot.issued :=
      Nat.le_trans (h.pending_le_issued (List.mem_map_of_mem hold)) (issued_le_run g pre)
    have hafter : w ∈ ((g.run pre).step e).1.waiting :=
      mem_waiting_of_le hw (Nat.le_trans hissued (issued_le_step _ e))
    have hstep : w ∈ ((g.run pre).run [e]).waiting := hafter
    have hbefore : w ∈ (g.run pre).waiting := mem_waiting_of_le hstep hissued
    exact (h.run pre).lt_deadline_of_served hid (htime e he) hbefore hafter
  · have hnow : now ≤ t := by
      have hevent : Event.acquire t ∈ es := mem_of_mem_trace hqueued
      exact htime _ hevent t rfl
    have hpositive : g.patience ≠ 0 := by
      intro hzero
      apply husable
      exact UInt64.toNat_inj.1 hzero
    omega

/-- A request that times out was in the queue behind another owner, until its deadline at
least. -/
theorem resume_of_timedOut (h : g.Coherent) {now : Nat}
    (hout : (g.step (.resume now id)).2 = .turned .timedOut) :
    g.slot.grant ≠ some id ∧ (∃ w ∈ g.waiting, w.id = id ∧ w.deadline ≤ now) ∧
      (g.step (.resume now id)).1 = { g.forget id with slot := g.slot.dequeue id } := by
  simp only [Gate.step] at hout ⊢
  rcases resume_cases g now id with heq | ⟨-, -, heq⟩ | ⟨hid, hg, heq⟩
  · simp [heq] at hout
  · simp [heq] at hout
  · refine ⟨hg, ?_, by rw [heq]⟩
    rcases List.mem_map.1 hid with ⟨w, hw, rfl⟩
    refine ⟨w, hw, rfl, ?_⟩
    by_contra hearly
    rw [h.resume_eq hw, if_neg hg, if_neg hearly] at heq
    simp at heq

/-- A request that has ended is not in the line, now or later. -/
theorem notMem_line_of_left (h : g.Coherent) {e : Event}
    (hleft : left (e, (g.step e).2) = some id) (more : List Event) :
    id ∉ ((g.step e).1.run more).slot.line := by
  have hissued : id ≤ (g.step e).1.slot.issued :=
    Nat.le_trans (h.le_issued_of_left hleft) (issued_le_step g e)
  have hjoined : joined (e, (g.step e).2) = none := by
    cases hjoined : joined (e, (g.step e).2) with
    | none => rfl
    | some n => simp [(eq_nextId_of_joined hjoined).2.2] at hleft
  intro hmem
  have hnow := (h.step e).mem_line_of_run hissued hmem
  rw [h.line_step, hjoined, hleft] at hnow
  exact h.slot.nodup.not_mem_erase hnow

/-- A request that has timed out is not in the line, now or later. -/
theorem notMem_line_of_timedOut (h : g.Coherent) {now : Nat}
    (hout : (g.step (.resume now id)).2 = .turned .timedOut) (more : List Event) :
    id ∉ ((g.step (.resume now id)).1.run more).slot.line := by
  apply h.notMem_line_of_left
  rw [hout]
  rfl

end Coherent

/-! ## Exact timeouts -/

/-- What becomes of the requests that wait, in a run that began with a new gate. -/
structure ExactTimeouts (new : Gate) (es : List Event) : Prop where
  /-- A request in hand that queued at some time goes on: it becomes a ticket if it was
  ever granted the slot, however late it is, and otherwise it has timed out when the
  timeout of the gate has passed since it queued. -/
  turn : ∀ t id now, QueuedAt (new.trace es) id t → id ∈ (new.run es).pending →
    ((new.run es).step (.resume now id)).2 =
      .turned (if id ∈ new.grants es then .granted
        else if t + new.patience ≤ now then .timedOut else .waiting)
  /-- A request that is told of its grant has a ticket that can be locked. -/
  ticket : ∀ id now, ((new.run es).step (.resume now id)).2 = .turned .granted →
    ((new.run es).step (.resume now id)).1.phase id = .granted
  /-- A request that times out did queue, at a time that is as long ago as the timeout, and
  was never granted the slot. -/
  late : ∀ id now, ((new.run es).step (.resume now id)).2 = .turned .timedOut →
    id ∉ new.grants es ∧ (∃ t, QueuedAt (new.trace es) id t) ∧
      ∀ t, QueuedAt (new.trace es) id t → t + new.patience ≤ now
  /-- The error of a request that times out tells the timeout of the gate. -/
  waited : (new.run es).timeoutError = .timeout new.name new.options.timeout ∧
    new.options.timeout.wholeMillis = new.patience
  /-- A request that times out leaves the holder, the status and the order of the others. -/
  unnoticed : ∀ id now, ((new.run es).step (.resume now id)).2 = .turned .timedOut →
    let g := new.run es
    let after := (g.step (.resume now id)).1
    after.slot.grant = g.slot.grant ∧ after.tickets = g.tickets ∧ after.status = g.status ∧
      after.slot.waiters = g.slot.waiters.filter (·.id ≠ id)
  /-- A request that has timed out never owns the slot, is never again in the queue, and is
  in nobody's hand, however the run goes on. -/
  gone : ∀ id now more, ((new.run es).step (.resume now id)).2 = .turned .timedOut →
    let all := es ++ .resume now id :: more
    id ∉ new.grants all ∧ id ∉ (new.run all).slot.line ∧ id ∉ (new.run all).pending
  /-- The queue holds the requests in hand that do not own the slot, in their order. -/
  queue : (new.run es).slot.waiters.map Waiter.id = (new.run es).others
  /-- A deadline is the time of queueing and the timeout of the gate. -/
  due : ∀ w ∈ (new.run es).waiting,
    ∃ t, QueuedAt (new.trace es) w.id t ∧ w.deadline = t + new.patience
  /-- Deadlines do not decrease along the queue if the clock never goes back. -/
  sorted : Timely es → (new.run es).waiting.Pairwise fun v w => v.deadline ≤ w.deadline
  /-- When every request that waited has gone on or was given up, at a time or later and in
  any order among whatever else happens, those in hand have deadlines after that time. -/
  settled : new.options.Usable → ∀ now more,
    (∀ e ∈ more, ∀ t, e.time? = some t → now ≤ t) →
    (∀ id ∈ (new.run es).pending, ∃ e ∈ more, e.served? = some id) →
    ∀ w ∈ (new.run (es ++ more)).waiting, now < w.deadline

/-- The timeouts of every run are exact. -/
theorem exactTimeouts (name : String) (options : Options) (es : List Event) :
    ExactTimeouts { name, options } es := by
  generalize hnew : ({ name, options } : Gate) = new
  have hfresh : new.Coherent := hnew ▸ coherent_initial name options
  have hnone : new.slot.grant = none := by
    rw [← hnew]
  have hempty : new.waiting = [] := by
    rw [← hnew]
  have hg : (new.run es).Coherent := hfresh.run es
  have hsettings := settings_run new es
  have hdue : ∀ w ∈ (new.run es).waiting,
      ∃ t, QueuedAt (new.trace es) w.id t ∧ w.deadline = t + new.patience := by
    intro w hw
    rcases mem_waiting_run hw with hold | ⟨-, hlate⟩
    · rw [hempty] at hold
      simp at hold
    · exact hlate
  constructor
  case turn =>
    intro t id now hqueued hid
    rcases List.mem_map.1 hid with ⟨w, hw, rfl⟩
    rcases hdue w hw with ⟨u, hu, hdeadline⟩
    obtain rfl : t = u := queuedAt_unique hqueued hu
    rw [step, hg.resume_eq hw, hdeadline]
    by_cases hgrant : (new.run es).slot.grant = some w.id
    · have hmem := (hfresh.mem_grants_iff hnone hid).2 hgrant
      rw [if_pos hgrant, if_pos hmem]
    · have hmem := mt (hfresh.mem_grants_iff hnone hid).1 hgrant
      rw [if_neg hgrant, if_neg hmem]
      split <;> rfl
  case ticket =>
    intro id now hgranted
    exact hg.phase_of_resume hgranted
  case late =>
    intro id now hout
    rcases hg.resume_of_timedOut hout with ⟨hother, ⟨w, hw, rfl, hdeadline⟩, -⟩
    rcases hdue w hw with ⟨t, hqueued, heq⟩
    refine ⟨?_, ⟨t, hqueued⟩, ?_⟩
    · rw [hfresh.mem_grants_iff hnone (List.mem_map_of_mem hw)]
      exact hother
    · intro u hu
      rw [queuedAt_unique hu hqueued, ← heq]
      exact hdeadline
  case waited =>
    constructor
    · rw [timeoutError, hsettings.1, hsettings.2]
    · exact Span.wholeMillis_ofMillis new.options.timeoutMs
  case unnoticed =>
    intro id now hout g after
    rcases hg.resume_of_timedOut hout with ⟨-, -, heq⟩
    have hafter : after = { g.forget id with slot := g.slot.dequeue id } := heq
    rw [hafter]
    exact ⟨rfl, rfl, rfl, eraseP_key_eq_filter Waiter.id hg.slot.nodup_waiters id⟩
  case gone =>
    intro id now more hout all
    have hrun : new.run all = ((new.run es).step (.resume now id)).1.run more := by
      rw [run_append, run_cons]
    have hafter : ((new.run es).step (.resume now id)).1.Coherent := hg.step _
    have hline := hg.notMem_line_of_timedOut hout
    rcases hg.resume_of_timedOut hout with ⟨hother, ⟨w, hw, rfl, -⟩, -⟩
    refine ⟨?_, ?_, ?_⟩
    · have hbefore : w.id ∉ new.grants es := by
        rw [hfresh.mem_grants_iff hnone (List.mem_map_of_mem hw)]
        exact hother
      rw [grants_append, List.mem_append]
      rintro (hmem | hmem)
      · exact hbefore hmem
      · rcases exists_of_mem_grants hmem with ⟨pre, post, hsplit, hgrant⟩
        cases pre with
        | nil => exact hother hgrant
        | cons e pre =>
            obtain rfl : Event.resume now w.id = e := (List.cons.inj hsplit).1
            apply hline pre
            exact Slot.mem_line_of_grant hgrant
    · rw [hrun]
      exact hline more
    · rw [hrun]
      exact fun hmem => hline more ((hafter.run more).pending_subset_line hmem)
  case queue => exact hg.oneOwner.queue
  case due => exact hdue
  case sorted =>
    intro htimely
    have htimes : (0 :: es.filterMap Event.time?).Pairwise (· ≤ ·) :=
      List.pairwise_cons.2 ⟨fun t _ => Nat.zero_le t, htimely⟩
    refine pairwise_deadlines ?_ ?_ htimes
    · simp [hempty]
    · simp [hempty]
  case settled =>
    intro husable now more htime hserved w hw
    rw [run_append] at hw
    refine hg.lt_deadline_of_run ?_ htime (fun hold => ?_) hw
    · rw [hsettings.2]
      exact husable
    · exact hserved w.id (List.mem_map_of_mem hold)

end Gate
end AwardsDesk
