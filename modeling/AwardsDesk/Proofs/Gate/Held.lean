import AwardsDesk.Proofs.Gate.Timeouts
import Mathlib.Data.List.Induction

/-!
# What held means

A gate shows as held for one of two reasons: the owner of the slot has locked its ticket, or
the slot was handed to it from the queue and it has not locked its ticket yet.  Only an owner
that found the slot free leaves the gate showing as free, until it locks its ticket.  The flag
is one, so which of the reasons it stands for has to be read off how the owner came to own the
slot.

Main definitions:

- Functions {lit}`Gate.handed` and {lit}`Gate.handovers`: the requests that got the slot from
  the queue.
- Inductive type {lit}`Gate.GivesBack`: the events in which an owner gives the slot back.

Main results:

- Theorem {lit}`Gate.Coherent.owns`: how a request comes to own the slot in one event, and
  what the gate shows then.
- Theorem {lit}`Gate.Coherent.locked_run_iff`: the flag is up for one of the two reasons.
- Theorem {lit}`Gate.held_means`: what held means after any run, and after the slot is given
  back.
-/

namespace AwardsDesk
namespace Gate

variable {g : Gate} {id : Nat}

/-! ## Out of the queue -/

/-- The request that gets the slot from the queue in an event. -/
def handed (g : Gate) (e : Event) : Option Nat :=
  (g.step e).1.slot.grant.filter g.slot.isQueued

/-- The requests that got the slot from the queue in a run, one after another. -/
def handovers (g : Gate) : List Event → List Nat
  | [] => []
  | e :: es => (g.handed e).toList ++ handovers (g.step e).1 es

/-- A request gets the slot from the queue when it waits before an event and owns the slot
after it. -/
theorem handed_eq_some {e : Event} :
    g.handed e = some id ↔ (g.step e).1.slot.grant = some id ∧ g.slot.isQueued id = true := by
  rw [handed, Option.filter_eq_some_iff]

/-- The slot is handed over in a run as it is in its parts. -/
theorem handovers_append (g : Gate) (es more : List Event) :
    g.handovers (es ++ more) = g.handovers es ++ (g.run es).handovers more := by
  induction es generalizing g with
  | nil => rfl
  | cons e es ih => rw [List.cons_append, handovers, handovers, ih, run_cons, List.append_assoc]

/-- Who waits in the queue is in the line. -/
theorem Slot.mem_line_of_isQueued {s : Slot} (hid : s.isQueued id = true) : id ∈ s.line := by
  rw [line, List.mem_append]
  right
  simpa [isQueued] using hid

namespace Coherent

/-- Who got the slot from the queue in a run was made before the run ended. -/
theorem le_issued_of_mem_handovers (h : g.Coherent) {es : List Event}
    (hid : id ∈ g.handovers es) : id ≤ (g.run es).slot.issued := by
  induction es generalizing g with
  | nil => simp [handovers] at hid
  | cons e es ih =>
      rw [handovers, List.mem_append, Option.mem_toList, handed_eq_some] at hid
      rcases hid with ⟨-, hqueued⟩ | hlater
      · have hmade := h.slot.le_issued id (Slot.mem_line_of_isQueued hqueued)
        exact Nat.le_trans hmade (issued_le_run g (e :: es))
      · exact ih (h.step e) hlater

/-- Whose ticket was locked in a run was made before the run ended. -/
theorem le_issued_of_locked (h : g.Coherent) {es : List Event}
    (hlocked : (.lock id, .done) ∈ g.trace es) : id ≤ (g.run es).slot.issued := by
  induction es generalizing g with
  | nil => simp [trace] at hlocked
  | cons e es ih =>
      rw [trace, List.mem_cons, Prod.mk.injEq] at hlocked
      rcases hlocked with ⟨rfl, hdone⟩ | hlater
      · rcases step_lock_cases g id with ⟨e, heq⟩ | ⟨-, hg, -⟩
        · simp [heq] at hdone
        · have hmade := h.slot.le_issued id (Slot.mem_line_of_grant hg)
          exact Nat.le_trans hmade (issued_le_run g (.lock id :: es))
      · exact ih (h.step e) hlater

end Coherent

/-! ## One event -/

/-- How a request owns the slot after an event, and what the gate shows then. -/
inductive Owns (g : Gate) (e : Event) (id : Nat) : Prop where
  /-- It owned the slot before, and its ticket is not locked in the event. -/
  | before (owner : g.slot.grant = some id)
      (same : (g.step e).1.slot.locked = g.slot.locked)
      (told : (e, (g.step e).2) ≠ (.lock id, .done))
  /-- It owned the slot before, and its ticket is locked in the event. -/
  | locks (owner : g.slot.grant = some id)
      (shown : (g.step e).1.slot.locked = true)
      (told : (e, (g.step e).2) = (.lock id, .done))
  /-- It is a new request that found the slot free. -/
  | atOnce (new : id = g.slot.nextId)
      (shown : (g.step e).1.slot.locked = false)
      (told : (e, (g.step e).2) ≠ (.lock id, .done))
  /-- It waited in the queue, and the slot was handed to it. -/
  | fromQueue (handed : g.handed e = some id)
      (shown : (g.step e).1.slot.locked = true)

/-- A request in hand that is given up leaves the slot or the queue. -/
theorem slot_cancel (hid : id ∈ g.pending) : (g.cancel id).slot = g.slot.withdraw id := by
  have hpending : g.isPending id = true := isPending_iff.2 hid
  exact congrArg Gate.slot (if_pos hpending)

namespace Coherent

/-- After the slot was given back by somebody, its owner got it from the queue, or is the old
one because it was given back by another. -/
theorem owns_of_release (h : g.Coherent) {e : Event} {n : Nat}
    (hslot : (g.step e).1.slot = g.slot.release n)
    (htold : (e, (g.step e).2) ≠ (.lock id, .done))
    (hid : (g.step e).1.slot.grant = some id) : g.Owns e id := by
  by_cases hg : g.slot.grant = some n
  · have hrelease := hslot.trans (h.slot.release_eq hg)
    cases hw : g.slot.waiters with
    | nil => simp [hrelease, hw] at hid
    | cons w rest =>
        obtain rfl : w.id = id := by simpa [hrelease, hw] using hid
        refine .fromQueue (handed_eq_some.2 ⟨hid, ?_⟩) ?_
        · simp [Slot.isQueued, hw]
        · simp [hrelease, hw]
  · rw [Slot.release_of_ne hg] at hslot
    exact .before (hslot ▸ hid) (by rw [hslot]) htold

/-- How the owner of the slot after an event came to own it. -/
theorem owns (h : g.Coherent) {e : Event} (hid : (g.step e).1.slot.grant = some id) :
    g.Owns e id := by
  cases e with
  | acquire now =>
      by_cases hg : g.slot.grant = none
      · have hlocked : g.slot.locked = false := by
          by_contra hshown
          exact h.slot.owned (by simpa using hshown) hg
        rw [Gate.step, h.acquire_of_free hg] at hid
        refine .atOnce ?_ ?_ (by simp)
        · simpa using hid.symm
        · rw [Gate.step, h.acquire_of_free hg]
          exact hlocked
      · rw [Gate.step, h.acquire_of_grant hg] at hid
        refine .before hid ?_ (by simp)
        rw [Gate.step, h.acquire_of_grant hg]
  | resume now n =>
      -- The slot keeps its owner and its flag, whichever way the request goes on.
      have hslot : (g.step (.resume now n)).1.slot.grant = g.slot.grant ∧
          (g.step (.resume now n)).1.slot.locked = g.slot.locked := by
        rw [Gate.step]
        rcases resume_cases g now n with heq | ⟨-, -, heq⟩ | ⟨-, -, heq⟩ <;>
          exact heq ▸ ⟨rfl, rfl⟩
      exact .before (hslot.1 ▸ hid) hslot.2 (by simp)
  | cancel n =>
      by_cases hpending : n ∈ g.pending
      · have hslot : (g.step (.cancel n)).1.slot = g.slot.withdraw n := slot_cancel hpending
        by_cases hqueued : g.slot.isQueued n = true
        · rw [Slot.withdraw, if_pos hqueued] at hslot
          exact .before (by simpa [hslot] using hid) (by rw [hslot]; rfl) (by simp)
        · rw [Slot.withdraw, if_neg hqueued] at hslot
          exact h.owns_of_release hslot (by simp) hid
      · have hgate : (g.step (.cancel n)).1 = g := if_neg (mt isPending_iff.1 hpending)
        exact .before (hgate ▸ hid) (by rw [hgate]) (by simp)
  | lock n =>
      rcases step_lock_cases g n with ⟨err, heq⟩ | ⟨-, hg, heq⟩
      · rw [heq] at hid
        exact .before hid (by rw [heq]) (by simp [heq])
      · rw [heq] at hid
        obtain rfl : n = id := Option.some.inj (hg.symm.trans hid)
        exact .locks hg (by rw [heq]; rfl) (by rw [heq])
  | unlock n =>
      rcases step_unlock_cases g n with ⟨err, heq⟩ | ⟨-, heq⟩
      · rw [heq] at hid
        exact .before hid (by rw [heq]) (by simp)
      · exact h.owns_of_release (by rw [heq]; rfl) (by simp) hid
  | drop n =>
      by_cases hphase : g.phase n = .released
      · have hslot : (g.step (.drop n)).1.slot = g.slot := if_pos hphase
        exact .before (hslot ▸ hid) (by rw [hslot]) (by simp)
      · exact h.owns_of_release (if_neg hphase) (by simp) hid

/-! ## Runs -/

/-- The owner of the slot after a run shows the gate as held if it got the slot from the queue
in the run or its ticket was locked in the run, provided that the slot had no owner before. -/
theorem locked_run_iff (h : g.Coherent) (hfree : g.slot.grant = none) {es : List Event}
    (hid : (g.run es).slot.grant = some id) :
    (g.run es).slot.locked = true ↔
      id ∈ g.handovers es ∨ (.lock id, .done) ∈ g.trace es := by
  induction es using List.reverseRecOn with
  | nil => simp [hfree] at hid
  | append_singleton es e ih =>
      have hbefore : (g.run es).Coherent := h.run es
      have hrun : g.run (es ++ [e]) = ((g.run es).step e).1 := run_append g es [e]
      rw [hrun] at hid
      rw [hrun, handovers_append, trace_append, List.mem_append, List.mem_append, trace, trace,
        List.mem_singleton, handovers, handovers, List.append_nil, Option.mem_toList]
      cases hbefore.owns hid with
      | before owner same told =>
          have hqueued : (g.run es).handed e ≠ some id := by
            rw [Ne, handed_eq_some, not_and]
            intro _ hqueued
            exact hbefore.slot.grant_notMem owner (by simpa [Slot.isQueued] using hqueued)
          simp only [same, ih owner, hqueued, told.symm, or_false]
      | locks owner shown told => simp [shown, told]
      | atOnce new shown told =>
          have hnew : ¬id ≤ (g.run es).slot.issued := by
            rw [new, Slot.nextId]
            omega
          have hqueued : (g.run es).handed e ≠ some id := by
            rw [Ne, handed_eq_some, not_and]
            intro _ hqueued
            exact hnew (hbefore.slot.le_issued id (Slot.mem_line_of_isQueued hqueued))
          have hhanded : id ∉ g.handovers es := mt h.le_issued_of_mem_handovers hnew
          have hlocked : (.lock id, .done) ∉ g.trace es := mt h.le_issued_of_locked hnew
          simp only [shown, hqueued, hhanded, hlocked, told.symm, or_false, Bool.false_eq_true]
      | fromQueue handed shown => simp [shown, handed]

end Coherent

/-! ## Giving the slot back -/

/-- The owner of the slot gives it back in an event. -/
inductive GivesBack (g : Gate) (id : Nat) : Event → Prop where
  /-- Its ticket is unlocked. -/
  | unlock (told : (g.step (.unlock id)).2 = .done) : GivesBack g id (.unlock id)
  /-- Its ticket, locked or not, is released by hand or thrown away. -/
  | drop (owner : g.slot.grant = some id) (ticket : id ∈ g.ticketIds) : GivesBack g id (.drop id)
  /-- It is given up before it has seen that the slot was granted to it. -/
  | cancel (owner : g.slot.grant = some id) (unseen : id ∈ g.pending) : GivesBack g id (.cancel id)

/-- The owner gives back the slot in the same way in all these events. -/
theorem Coherent.slot_of_givesBack (h : g.Coherent) {e : Event} (hback : g.GivesBack id e) :
    (g.step e).1.slot =
      { g.slot with
        locked := !g.slot.waiters.isEmpty
        grant := g.slot.waiters.head?.map Waiter.id
        waiters := g.slot.waiters.tail } := by
  cases hback with
  | unlock told =>
      rcases step_unlock_cases g id with ⟨err, heq⟩ | ⟨hphase, heq⟩
      · simp [heq] at told
      · rw [heq, ← h.slot.release_eq (h.grant_of_locked hphase)]
        rfl
  | drop owner ticket =>
      have hphase : g.phase id ≠ .released := by
        intro hreleased
        exact h.notMem_line_of_released ticket hreleased (Slot.mem_line_of_grant owner)
      rw [← h.slot.release_eq owner]
      exact if_neg hphase
  | cancel owner unseen =>
      have hqueued : ¬g.slot.isQueued id = true := by
        intro hqueued
        exact h.slot.grant_notMem owner (by simpa [Slot.isQueued] using hqueued)
      rw [← h.slot.release_eq owner, Gate.step, slot_cancel unseen]
      exact if_neg hqueued

/-! ## What held means -/

/-- What a gate shows after a run that began with a new gate. -/
structure HeldMeans (new : Gate) (es : List Event) : Prop where
  /-- The gate is held when its slot has an owner that got it from the queue or has had its
  ticket locked. -/
  held_iff : (new.run es).status = .held ↔
    ∃ id, (new.run es).slot.grant = some id ∧
      (id ∈ new.handovers es ∨ (.lock id, .done) ∈ new.trace es)
  /-- When the owner gives the slot back, in whichever way, it falls to the first in the queue,
  if there is one. -/
  slot : ∀ id e, (new.run es).GivesBack id e →
    ((new.run es).step e).1.slot =
      { (new.run es).slot with
        locked := !(new.run es).slot.waiters.isEmpty
        grant := (new.run es).slot.waiters.head?.map Waiter.id
        waiters := (new.run es).slot.waiters.tail }
  /-- When the owner gives the slot back while others queue, the gate is held. -/
  handedOver : ∀ id e, (new.run es).GivesBack id e → (new.run es).slot.waiters ≠ [] →
    ((new.run es).step e).1.status = .held
  /-- When the owner gives the slot back and nobody queues, the gate is free, without an owner
  and with an empty queue. -/
  freed : ∀ id e, (new.run es).GivesBack id e → (new.run es).slot.waiters = [] →
    let after := ((new.run es).step e).1
    after.status = .free ∧ after.slot.grant = none ∧ after.slot.waiters = []

/-- A gate shows as held when its slot is locked. -/
theorem status_eq_held : g.status = .held ↔ g.slot.locked = true := by
  unfold status
  split <;> simp_all

/-- After any run a gate is held for one of the two reasons, and giving the slot back leaves it
held or free by whether others queue. -/
theorem held_means (name : String) (options : Options) (es : List Event) :
    HeldMeans { name, options } es := by
  generalize hnew : ({ name, options } : Gate) = new
  have hfresh : new.Coherent := hnew ▸ coherent_initial name options
  have hnone : new.slot.grant = none := by
    rw [← hnew]
  have hg : (new.run es).Coherent := hfresh.run es
  constructor
  case held_iff =>
    rw [status_eq_held]
    constructor
    · intro hlocked
      rcases Option.ne_none_iff_exists'.1 (hg.slot.owned hlocked) with ⟨id, hid⟩
      exact ⟨id, hid, (hfresh.locked_run_iff hnone hid).1 hlocked⟩
    · rintro ⟨id, hid, hreason⟩
      exact (hfresh.locked_run_iff hnone hid).2 hreason
  case slot => exact fun _ _ hback => hg.slot_of_givesBack hback
  case handedOver =>
    intro id e hback hwaiters
    rw [status_eq_held, hg.slot_of_givesBack hback]
    simpa using hwaiters
  case freed =>
    intro id e hback hwaiters after
    have hafter : after.slot = _ := hg.slot_of_givesBack hback
    rw [status, hafter, hwaiters]
    exact ⟨rfl, rfl, rfl⟩

/-- A gate is held by a request that the slot was handed to, though no ticket was ever locked. -/
example :
    let es : List Event := [.acquire 0, .acquire 0, .drop 1]
    (Gate.run { name := "desk", options := {} } es).status = .held ∧
      Gate.handovers { name := "desk", options := {} } es = [2] := by
  decide

end Gate
end AwardsDesk
