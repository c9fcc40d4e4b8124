import AwardsDesk.Proofs.Gate.Tickets

/-!
# Who owns the slot

The slot of a gate, the phases of its tickets and the requests that callers have in hand
belong together: the owner of the slot is one ticket not yet given back, or one request
that was granted the slot and has not seen it, and all other requests wait in the queue.
Every event keeps this, whoever comes in whichever order.

Main definitions:

- Inductive type {lit}`Gate.Owned`: the three ways in which a slot can be owned.
- Structure {lit}`Gate.Coherent`: the invariant of a gate and its callers.

Main results:

- Theorem {lit}`Gate.Coherent.step`: every event keeps the invariant.
- Theorem {lit}`Gate.one_owner_run`: who owns the slot, and who waits for it, after any
  run.
-/

namespace AwardsDesk
namespace Gate

variable {g : Gate} {id : Nat}

/-! ## The invariant -/

/-- Who owns the slot, and who waits for it. -/
inductive Owned (g : Gate) : Prop where
  /-- Nobody owns the slot, and nobody has a request or a ticket. -/
  | nobody (grant : g.slot.grant = none) (holders : g.holders = []) (pending : g.pending = [])
  /-- A ticket owns the slot, and all requests wait. -/
  | ticket (id : Nat) (grant : g.slot.grant = some id) (holders : g.holders = [id])
      (pending : g.pending = g.slot.waiters.map Waiter.id)
  /-- The first request owns the slot unseen, and the others wait. -/
  | unseen (id : Nat) (grant : g.slot.grant = some id) (holders : g.holders = [])
      (pending : g.pending = id :: g.slot.waiters.map Waiter.id)

/-- A gate and its callers agree. -/
structure Coherent (g : Gate) : Prop where
  slot : g.slot.Ordered
  owned : g.Owned
  kept : g.Kept

/-- A new gate. -/
theorem coherent_initial (name : String) (options : Options) :
    Coherent { name, options } where
  slot := Slot.ordered_initial
  owned := .nobody rfl rfl rfl
  kept := ⟨by simp [ticketIds], by simp [ticketIds], by simp [ticketIds], by simp⟩

/-- The line is made of the ticket not given back and the requests in hand. -/
theorem Owned.line_eq (h : g.Owned) (hidle : g.slot.grant = none → g.slot.waiters = []) :
    g.slot.line = g.holders ++ g.pending := by
  cases h with
  | nobody grant holders pending => simp [Slot.line, grant, holders, pending, hidle grant]
  | ticket id grant holders pending => simp [Slot.line, grant, holders, pending]
  | unseen id grant holders pending => simp [Slot.line, grant, holders, pending]

/-- A new request changes the slot as such. -/
theorem slot_acquire (g : Gate) (now : Nat) : (g.acquire now).1.slot = g.slot.request := by
  unfold acquire
  split <;> rfl

/-- When the owner has given the slot back and has no ticket left, and all requests in
hand wait, the first of them owns the slot next. -/
theorem owned_release (h : g.slot.Ordered) (hg : g.slot.grant = some id) {g' : Gate}
    (hslot : g'.slot = g.slot.release id) (hholders : g'.holders = [])
    (hpending : g'.pending = g.slot.waiters.map Waiter.id) : g'.Owned := by
  rw [h.release_eq hg] at hslot
  cases hw : g.slot.waiters with
  | nil =>
      refine .nobody ?_ hholders ?_
      · simp [hslot, hw]
      · simp [hpending, hw]
  | cons w rest =>
      refine .unseen w.id ?_ hholders ?_
      · simp [hslot, hw]
      · simp [hpending, hslot, hw]

namespace Coherent

/-- The line is made of the ticket not given back and the requests in hand. -/
theorem line_eq (h : g.Coherent) : g.slot.line = g.holders ++ g.pending :=
  h.owned.line_eq h.slot.idle

/-- No two requests in hand have the same number. -/
theorem nodup_pending (h : g.Coherent) : g.pending.Nodup := by
  have hnodup := h.slot.nodup
  rw [h.line_eq] at hnodup
  exact (List.nodup_append.1 hnodup).2.1

/-- Every request in hand was made. -/
theorem pending_le_issued (h : g.Coherent) (hid : id ∈ g.pending) : id ≤ g.slot.issued := by
  apply h.slot.le_issued
  rw [h.line_eq]
  exact List.mem_append_right _ hid

/-- A ticket that can still be used owns the slot, and all requests in hand wait. -/
theorem owner_of_phase (h : g.Coherent) (hphase : g.phase id ≠ .released) :
    g.slot.grant = some id ∧ g.holders = [id] ∧
      g.pending = g.slot.waiters.map Waiter.id := by
  rcases exists_ticket_of_phase hphase with ⟨t, ht, hid, htphase⟩
  have hmem : id ∈ g.holders := mem_holders.2 ⟨t, ht, htphase ▸ hphase, hid⟩
  cases h.owned with
  | nobody grant holders pending => simp [holders] at hmem
  | ticket owner grant holders pending =>
      obtain rfl : id = owner := by simpa [holders] using hmem
      exact ⟨grant, holders, pending⟩
  | unseen owner grant holders pending => simp [holders] at hmem

/-- A granted ticket owns the slot. -/
theorem grant_of_granted (h : g.Coherent) (hphase : g.phase id = .granted) :
    g.slot.grant = some id := by
  have hused : g.phase id ≠ .released := by simp [hphase]
  exact (h.owner_of_phase hused).1

/-- A locked ticket owns the slot. -/
theorem grant_of_locked (h : g.Coherent) (hphase : g.phase id = .locked) :
    g.slot.grant = some id := by
  have hused : g.phase id ≠ .released := by simp [hphase]
  exact (h.owner_of_phase hused).1

/-- A request that owns the slot unseen is the first in hand, and nobody has a ticket. -/
theorem unseen_of_grant (h : g.Coherent) (hid : id ∈ g.pending) (hg : g.slot.grant = some id) :
    g.holders = [] ∧ g.pending = id :: g.slot.waiters.map Waiter.id := by
  cases h.owned with
  | nobody grant holders pending => simp [pending] at hid
  | ticket owner grant holders pending =>
      rw [pending] at hid
      exact absurd hid (h.slot.grant_notMem hg)
  | unseen owner grant holders pending =>
      obtain rfl : owner = id := by simpa [grant] using hg
      exact ⟨holders, pending⟩

/-- Those who do not own the slot wait in the queue. -/
theorem mem_waiters_of_ne (h : g.Coherent) (hid : id ∈ g.pending) (hg : g.slot.grant ≠ some id) :
    id ∈ g.slot.waiters.map Waiter.id := by
  cases h.owned with
  | nobody grant holders pending => simp [pending] at hid
  | ticket owner grant holders pending => rwa [pending] at hid
  | unseen owner grant holders pending =>
      rw [pending, List.mem_cons] at hid
      rcases hid with rfl | hid
      · exact absurd grant hg
      · exact hid

/-! ## Requests -/

/-- A new request has a new number. -/
theorem nextId_notMem (h : g.Coherent) : g.slot.nextId ∉ g.ticketIds := by
  intro hmem
  have hle := h.kept.le_issued _ hmem
  rw [Slot.nextId] at hle
  omega

/-- A request that finds the slot free is a ticket at once. -/
theorem acquire_of_free (h : g.Coherent) (hg : g.slot.grant = none) (now : Nat) :
    g.acquire now =
      ({ g with
          slot := { g.slot with issued := g.slot.nextId, grant := some g.slot.nextId }
          tickets := g.tickets ++ [{ id := g.slot.nextId }] },
        .granted g.slot.nextId) := by
  have hfree : g.slot.isFree = true := h.slot.isFree_iff.2 hg
  simp [Gate.acquire, Slot.request, hfree]

/-- Any other request waits. -/
theorem acquire_of_grant (h : g.Coherent) (hg : g.slot.grant ≠ none) (now : Nat) :
    g.acquire now =
      ({ g with
          slot := { g.slot with
            issued := g.slot.nextId
            waiters := g.slot.waiters ++ [{ id := g.slot.nextId }] }
          waiting := g.waiting ++
            [{ id := g.slot.nextId, deadline := now + g.options.timeoutMs.toNat }] },
        .queued g.slot.nextId) := by
  have hfree : ¬g.slot.isFree = true := fun hfree => hg (h.slot.isFree_iff.1 hfree)
  simp [Gate.acquire, Slot.request, hfree]

/-- A new request keeps the invariant. -/
theorem acquire (h : g.Coherent) (now : Nat) : (g.acquire now).1.Coherent := by
  have hslot : (g.acquire now).1.slot.Ordered := slot_acquire g now ▸ h.slot.request
  have hissued : g.slot.issued ≤ g.slot.nextId := Nat.le_succ _
  by_cases hg : g.slot.grant = none
  · have hnone : g.holders = [] ∧ g.pending = [] := by
      have hline := h.line_eq
      rw [h.slot.line_of_grant_none hg] at hline
      simpa using hline.symm
    rw [h.acquire_of_free hg] at hslot ⊢
    refine ⟨hslot, .ticket g.slot.nextId rfl ?_ ?_, ?_⟩
    · rw [holders_newTicket rfl, hnone.1, List.nil_append]
    · rw [h.slot.idle hg]
      exact hnone.2
    · refine h.kept.newTicket rfl h.nextId_notMem (Nat.le_refl _) ?_ hissued ?_ rfl
      · simp [pending] at hnone ⊢
        simp [hnone]
      · exact fun _ hid => hid
  · rw [h.acquire_of_grant hg] at hslot ⊢
    refine ⟨hslot, ?_, ?_⟩
    · cases h.owned with
      | nobody grant holders pending => exact absurd grant hg
      | ticket owner grant holders pending =>
          refine .ticket owner grant holders ?_
          rw [Gate.pending, List.map_append, List.map_append, ← pending]
          rfl
      | unseen owner grant holders pending =>
          refine .unseen owner grant holders ?_
          rw [Gate.pending, List.map_append, List.map_append, ← List.cons_append, ← pending]
          rfl
    · refine h.kept.of_sublist (List.Sublist.refl _) hissued ?_ h.kept.locked
      intro n hn hmem
      rw [pending, List.map_append, List.mem_append] at hmem
      rcases hmem with hold | hnew
      · exact h.kept.apart n hn hold
      · obtain rfl : n = g.slot.nextId := by simpa using hnew
        exact h.nextId_notMem hn

end Coherent

/-- A request that goes on becomes a ticket if it owns the slot, leaves the queue if it
has waited too long, and otherwise waits on. -/
theorem resume_cases (g : Gate) (now id : Nat) :
    g.resume now id = (g, .waiting) ∨
      (id ∈ g.pending ∧ g.slot.grant = some id ∧
        g.resume now id = ({ g.forget id with tickets := g.tickets ++ [{ id }] }, .granted)) ∨
      (id ∈ g.pending ∧ g.slot.grant ≠ some id ∧
        g.resume now id = ({ g.forget id with slot := g.slot.dequeue id }, .timedOut)) := by
  unfold resume
  cases hfind : g.waiting.find? (·.id == id) with
  | none => exact Or.inl rfl
  | some w =>
      have hid := mem_pending_of_find? hfind
      by_cases hg : g.slot.grant = some id
      · exact Or.inr (Or.inl ⟨hid, hg, by simp [hg]⟩)
      · by_cases hdue : w.deadline ≤ now
        · exact Or.inr (Or.inr ⟨hid, hg, by simp [hg, hdue]⟩)
        · exact Or.inl (by simp [hg, hdue])

namespace Coherent

/-- A request that leaves the queue leaves the owner and keeps the invariant. -/
theorem dequeue (h : g.Coherent) (hid : id ∈ g.pending) (hg : g.slot.grant ≠ some id) :
    Coherent { g.forget id with slot := g.slot.dequeue id } := by
  have hwaiters : (g.slot.dequeue id).waiters.map Waiter.id =
      (g.slot.waiters.map Waiter.id).erase id :=
    map_eraseP_key Waiter.id g.slot.waiters id
  have hpending : ({ g.forget id with slot := g.slot.dequeue id } : Gate).pending =
      g.pending.erase id :=
    pending_forget
  refine ⟨h.slot.dequeue id, ?_, ?_⟩
  · cases h.owned with
    | nobody grant holders pending => simp [pending] at hid
    | ticket owner grant holders pending =>
        refine .ticket owner grant holders ?_
        rw [hpending, pending]
        exact hwaiters.symm
    | unseen owner grant holders pending =>
        have hne : owner ≠ id := fun heq => hg (heq ▸ grant)
        refine .unseen owner grant holders ?_
        rw [hpending, pending, List.erase_cons_tail (by simpa using hne)]
        exact congrArg _ hwaiters.symm
  · refine h.kept.of_sublist (List.Sublist.refl _) (Nat.le_refl _) ?_ h.kept.locked
    intro n hn hmem
    rw [hpending] at hmem
    exact h.kept.apart n hn (List.mem_of_mem_erase hmem)

/-- A request that goes on keeps the invariant. -/
theorem resume (h : g.Coherent) (now id : Nat) : (g.resume now id).1.Coherent := by
  rcases resume_cases g now id with heq | ⟨hid, hg, heq⟩ | ⟨hid, hg, heq⟩
  · rw [heq]
    exact h
  · rcases h.unseen_of_grant hid hg with ⟨hnone, hfirst⟩
    have hpending : ({ g.forget id with tickets := g.tickets ++ [{ id }] } : Gate).pending =
        g.slot.waiters.map Waiter.id := by
      change (g.forget id).pending = _
      rw [pending_forget, hfirst, List.erase_cons_head]
    rw [heq]
    refine ⟨h.slot, .ticket id hg ?_ hpending, ?_⟩
    · rw [holders_newTicket rfl, hnone, List.nil_append]
    · refine h.kept.newTicket rfl ?_ (h.pending_le_issued hid) ?_ (Nat.le_refl _) ?_ rfl
      · exact fun hmem => h.kept.apart id hmem hid
      · rw [hpending]
        exact h.slot.grant_notMem hg
      · rw [hpending, hfirst]
        exact List.subset_cons_self _ _
  · rw [heq]
    exact h.dequeue hid hg

/-- A request that is given up keeps the invariant. -/
theorem cancel (h : g.Coherent) (id : Nat) : (g.cancel id).Coherent := by
  unfold Gate.cancel
  split
  · rename_i hany
    have hid : id ∈ g.pending := isPending_iff.1 hany
    by_cases hg : g.slot.grant = some id
    · rcases h.unseen_of_grant hid hg with ⟨hnone, hfirst⟩
      have hqueued : ¬g.slot.isQueued id = true := by
        intro hqueued
        exact h.slot.grant_notMem hg (by simpa [Slot.isQueued] using hqueued)
      have hrelease : g.slot.withdraw id = g.slot.release id := by
        rw [Slot.withdraw, if_neg hqueued]
      have hpending : ({ g.forget id with slot := g.slot.withdraw id } : Gate).pending =
          g.slot.waiters.map Waiter.id := by
        change (g.forget id).pending = _
        rw [pending_forget, hfirst, List.erase_cons_head]
      refine ⟨h.slot.withdraw id, owned_release h.slot hg hrelease hnone hpending, ?_⟩
      refine h.kept.of_sublist (List.Sublist.refl _) ?_ ?_ ?_
      · simp [hrelease, h.slot.release_eq hg]
      · intro n hn hmem
        rw [hpending] at hmem
        exact h.kept.apart n hn (hfirst ▸ List.mem_cons_of_mem _ hmem)
      · -- Nobody has a ticket that could be locked while a request owns the slot.
        intro t ht hlocked
        have hreleased := holders_eq_nil.1 hnone t ht
        simp [hlocked] at hreleased
    · have hqueued : g.slot.isQueued id = true := by
        simpa [Slot.isQueued] using h.mem_waiters_of_ne hid hg
      have hdequeue : g.slot.withdraw id = g.slot.dequeue id := by
        rw [Slot.withdraw, if_pos hqueued]
      rw [hdequeue]
      exact h.dequeue hid hg
  · exact h

end Coherent

/-! ## Tickets -/

/-- A ticket can be locked if it is granted and owns the slot. -/
theorem lock_eq_ok_iff {g' : Gate} :
    g.lock id = .ok g' ↔
      g.phase id = .granted ∧ g.slot.grant = some id ∧
        g' = { g with slot := g.slot.lock }.setPhase id .locked := by
  unfold Gate.lock
  cases hphase : g.phase id with
  | granted =>
      by_cases hg : g.slot.grant = some id
      · simp [hg, eq_comm]
      · simp [hg]
  | locked => simp
  | released => simp

/-- A ticket can be unlocked if it is locked. -/
theorem unlock_eq_ok_iff {g' : Gate} :
    g.unlock id = .ok g' ↔
      g.phase id = .locked ∧ g' = { g with slot := g.slot.release id }.setPhase id .released := by
  unfold Gate.unlock
  cases hphase : g.phase id with
  | granted => simp
  | locked => simp [eq_comm]
  | released => simp

/-- A ticket to be locked is refused, or is granted and owns the slot. -/
theorem step_lock_cases (g : Gate) (id : Nat) :
    (∃ e, g.step (.lock id) = (g, .refused e)) ∨
      (g.phase id = .granted ∧ g.slot.grant = some id ∧
        g.step (.lock id) = ({ g with slot := g.slot.lock }.setPhase id .locked, .done)) := by
  rw [step]
  cases hlock : g.lock id with
  | error e => exact Or.inl ⟨e, rfl⟩
  | ok g' =>
      rcases lock_eq_ok_iff.1 hlock with ⟨hphase, hg, rfl⟩
      exact Or.inr ⟨hphase, hg, rfl⟩

/-- A ticket to be unlocked is refused, or is locked and gives the slot back. -/
theorem step_unlock_cases (g : Gate) (id : Nat) :
    (∃ e, g.step (.unlock id) = (g, .refused e)) ∨
      (g.phase id = .locked ∧
        g.step (.unlock id) =
          ({ g with slot := g.slot.release id }.setPhase id .released, .done)) := by
  rw [step]
  cases hunlock : g.unlock id with
  | error e => exact Or.inl ⟨e, rfl⟩
  | ok g' =>
      rcases unlock_eq_ok_iff.1 hunlock with ⟨hphase, rfl⟩
      exact Or.inr ⟨hphase, rfl⟩

namespace Coherent

/-- A ticket that is granted can be locked. -/
theorem lock_of_granted (h : g.Coherent) (hphase : g.phase id = .granted) :
    g.lock id = .ok ({ g with slot := g.slot.lock }.setPhase id .locked) := by
  exact lock_eq_ok_iff.2 ⟨hphase, h.grant_of_granted hphase, rfl⟩

/-- Locking a ticket keeps the invariant. -/
theorem lock (h : g.Coherent) {g' : Gate} (hlock : g.lock id = .ok g') : g'.Coherent := by
  rcases lock_eq_ok_iff.1 hlock with ⟨hphase, hg, rfl⟩
  have hused : g.phase id ≠ .released := by simp [hphase]
  rcases h.owner_of_phase hused with ⟨-, hholders, hpending⟩
  have hkeep : ∀ t ∈ g.tickets, t.id = id → t.phase ≠ .released := by
    intro t ht hid
    rw [← phase_of_mem h.kept.nodup ht, hid, hphase]
    simp
  refine ⟨h.slot.lock (by simp [hg]), .ticket id hg ?_ hpending, ?_⟩
  · exact (holders_setPhase_locked hkeep).trans hholders
  · refine h.kept.of_sublist ?_ (Nat.le_refl _) h.kept.apart fun _ _ _ => rfl
    rw [ticketIds_setPhase]
    exact List.Sublist.refl _

/-- The owner gives the slot back, and keeps the ticket or throws it away. -/
theorem giveBack (h : g.Coherent) (hphase : g.phase id ≠ .released) {g' : Gate}
    (hslot : g'.slot = g.slot.release id) (hpending : g'.pending = g.pending)
    (hsub : g'.ticketIds.Sublist g.ticketIds)
    (hholders : g'.holders = g.holders.filter (· ≠ id)) : g'.Coherent := by
  rcases h.owner_of_phase hphase with ⟨hg, hone, hwaiting⟩
  have hnone : g'.holders = [] := by
    simp [hholders, hone]
  refine ⟨hslot ▸ h.slot.release id, ?_, ?_⟩
  · exact owned_release h.slot hg hslot hnone (hpending.trans hwaiting)
  · refine h.kept.of_sublist hsub ?_ ?_ ?_
    · simp [hslot, h.slot.release_eq hg]
    · rw [hpending]
      exact h.kept.apart
    · intro t ht hlocked
      have hreleased := holders_eq_nil.1 hnone t ht
      simp [hlocked] at hreleased

/-- Unlocking a ticket keeps the invariant. -/
theorem unlock (h : g.Coherent) {g' : Gate} (hunlock : g.unlock id = .ok g') :
    g'.Coherent := by
  rcases unlock_eq_ok_iff.1 hunlock with ⟨hphase, rfl⟩
  have hused : g.phase id ≠ .released := by simp [hphase]
  refine h.giveBack hused rfl rfl ?_ holders_setPhase_released
  rw [ticketIds_setPhase]
  exact List.Sublist.refl _

/-- Throwing a ticket away keeps the invariant. -/
theorem drop (h : g.Coherent) (id : Nat) : (g.drop id).Coherent := by
  have hsub : (g.drop id).ticketIds.Sublist g.ticketIds :=
    List.eraseP_sublist.map Ticket.id
  have hholders := holders_drop h.kept.nodup id
  by_cases hphase : g.phase id = .released
  · have hslot : (g.drop id).slot = g.slot := by
      simp [Gate.drop, hphase]
    have hsame : (g.drop id).holders = g.holders := by
      rw [hholders, List.filter_eq_self]
      intro n hn
      rcases mem_holders.1 hn with ⟨t, ht, hreleased, rfl⟩
      rw [← phase_of_mem h.kept.nodup ht] at hreleased
      exact decide_eq_true fun heq => hreleased (heq ▸ hphase)
    refine ⟨hslot ▸ h.slot, ?_, ?_⟩
    · cases h.owned with
      | nobody grant holders pending =>
          exact .nobody (hslot ▸ grant) (hsame ▸ holders) pending
      | ticket owner grant holders pending =>
          exact .ticket owner (hslot ▸ grant) (hsame ▸ holders) (hslot ▸ pending)
      | unseen owner grant holders pending =>
          exact .unseen owner (hslot ▸ grant) (hsame ▸ holders) (hslot ▸ pending)
    · refine h.kept.of_sublist hsub (hslot ▸ Nat.le_refl _) h.kept.apart ?_
      intro t ht hlocked
      rw [hslot]
      exact h.kept.locked t (List.mem_of_mem_eraseP ht) hlocked
  · refine h.giveBack hphase ?_ rfl hsub hholders
    simp [Gate.drop, hphase]

/-! ## Runs -/

/-- Every event keeps the invariant. -/
theorem step (h : g.Coherent) (e : Event) : (g.step e).1.Coherent := by
  cases e with
  | acquire now => exact h.acquire now
  | resume now id => exact h.resume now id
  | cancel id => exact h.cancel id
  | lock id =>
      rw [Gate.step]
      cases hlock : g.lock id with
      | ok g' => exact h.lock hlock
      | error e => exact h
  | unlock id =>
      rw [Gate.step]
      cases hunlock : g.unlock id with
      | ok g' => exact h.unlock hunlock
      | error e => exact h
  | drop id => exact h.drop id

/-- Every run keeps the invariant. -/
theorem run (h : g.Coherent) (es : List Event) : (g.run es).Coherent :=
  run_induction (fun _ e hg => hg.step e) h es

end Coherent

/-! ## One owner -/

/-- What can own a slot: a ticket, or a request that has not seen its grant. -/
inductive Owner where
  | ticket (t : Ticket)
  | request (w : Waiting)

/-- The number of an owner. -/
def Owner.number : Owner → Nat
  | ticket t => t.id
  | request w => w.id

/-- All owners of the slot: the tickets that are granted or locked, and the requests in
hand to which the slot was granted. -/
def owners (g : Gate) : List Owner :=
  g.unreleased.map .ticket ++
    (g.waiting.filter fun w => g.slot.grant = some w.id).map .request

/-- The numbers of the requests in hand to which the slot was not granted. -/
def others (g : Gate) : List Nat :=
  (g.waiting.filter fun w => g.slot.grant ≠ some w.id).map Waiting.id

/-- The slot of a gate has one owner at most, and all others wait for it in the queue. -/
structure OneOwner (g : Gate) : Prop where
  /-- Without a grant no ticket is granted or locked, and nobody waits. -/
  of_grant_none : g.slot.grant = none →
    (∀ t ∈ g.tickets, t.phase = .released) ∧ g.waiting = [] ∧ g.slot.waiters = []
  /-- A grant has exactly one owner, of its number. -/
  of_grant_some : ∀ id, g.slot.grant = some id → ∃ o, g.owners = [o] ∧ o.number = id
  /-- The queue holds the other requests in hand, each of them once, and nothing else. -/
  queue : g.slot.waiters.map Waiter.id = g.others
  nodup : g.others.Nodup
  /-- A locked ticket shows on the slot. -/
  locked : ∀ t ∈ g.tickets, t.phase = .locked → g.slot.locked = true
  /-- A locked slot is granted. -/
  granted : g.slot.locked = true → g.slot.grant ≠ none
  /-- No two tickets are both granted or locked. -/
  unreleased_le_one : g.unreleased.length ≤ 1
  /-- The slot is not lost while somebody waits. -/
  not_lost : g.waiting ≠ [] → g.slot.grant ≠ none
  /-- A granted ticket can be locked. -/
  lockable : ∀ t ∈ g.tickets, t.phase = .granted → ∃ g', g.lock t.id = .ok g'

namespace Coherent

/-- When a ticket owns the slot, all requests in hand are others. -/
theorem others_of_holders (h : g.Coherent) (hg : g.slot.grant = some id)
    (hpending : g.pending = g.slot.waiters.map Waiter.id) :
    (g.waiting.filter fun w => g.slot.grant = some w.id) = [] ∧ g.others = g.pending := by
  have hne : ∀ w ∈ g.waiting, g.slot.grant ≠ some w.id := by
    intro w hw heq
    obtain rfl : id = w.id := by simpa [hg] using heq
    apply h.slot.grant_notMem hg
    rw [← hpending]
    exact List.mem_map_of_mem hw
  refine ⟨by simpa using hne, ?_⟩
  rw [others, pending, List.filter_eq_self.2]
  simpa using hne

/-- When the first request in hand owns the slot, all but it are others. -/
theorem others_of_unseen (h : g.Coherent) (hg : g.slot.grant = some id)
    (hpending : g.pending = id :: g.slot.waiters.map Waiter.id) :
    (∃ w, (g.waiting.filter fun w => g.slot.grant = some w.id) = [w] ∧ w.id = id) ∧
      g.others = g.slot.waiters.map Waiter.id := by
  unfold others
  unfold pending at hpending
  cases hw : g.waiting with
  | nil => simp [hw] at hpending
  | cons w rest =>
      rw [hw, List.map_cons, List.cons.injEq] at hpending
      rcases hpending with ⟨rfl, hrest⟩
      have hne : ∀ v ∈ rest, v.id ≠ w.id := by
        intro v hv heq
        apply h.slot.grant_notMem hg
        rw [← hrest, ← heq]
        exact List.mem_map_of_mem hv
      constructor
      · refine ⟨w, ?_, rfl⟩
        rw [hg, List.filter_cons_of_pos (by simp), List.cons.injEq, List.filter_eq_nil_iff]
        exact ⟨rfl, fun v hv => by simpa using (hne v hv).symm⟩
      · rw [hg, List.filter_cons_of_neg (by simp), List.filter_eq_self.2, hrest]
        exact fun v hv => by simpa using (hne v hv).symm

/-- A gate that agrees with its callers has one owner at most. -/
theorem oneOwner (h : g.Coherent) : g.OneOwner := by
  have hlock : ∀ t ∈ g.tickets, t.phase = .granted → ∃ g', g.lock t.id = .ok g' := by
    intro t ht hphase
    rw [← phase_of_mem h.kept.nodup ht] at hphase
    exact ⟨_, h.lock_of_granted hphase⟩
  cases h.owned with
  | nobody grant holders pending =>
      have hwaiting : g.waiting = [] := by simpa [Gate.pending] using pending
      have hunreleased : g.unreleased = [] := by simpa [Gate.holders] using holders
      refine ⟨fun _ => ⟨holders_eq_nil.1 holders, hwaiting, h.slot.idle grant⟩, ?_, ?_, ?_,
        h.kept.locked, h.slot.owned, ?_, fun hne => absurd hwaiting hne, hlock⟩
      · intro id hid
        simp [grant] at hid
      · simp [others, hwaiting, h.slot.idle grant]
      · simp [others, hwaiting]
      · simp [hunreleased]
  | ticket id grant holders pending =>
      rcases h.others_of_holders grant pending with ⟨hseen, hothers⟩
      have hsome : g.slot.grant ≠ none := by simp [grant]
      obtain ⟨t, hunreleased, rfl⟩ : ∃ t, g.unreleased = [t] ∧ t.id = id := by
        unfold Gate.holders at holders
        rcases List.map_eq_cons_iff.1 holders with ⟨t, l, hcons, hid, hnil⟩
        rw [List.map_eq_nil_iff] at hnil
        exact ⟨t, hnil ▸ hcons, hid⟩
      refine ⟨fun hnone => absurd hnone hsome, ?_, ?_, ?_, h.kept.locked, h.slot.owned, ?_,
        fun _ => hsome, hlock⟩
      · intro id hid
        refine ⟨.ticket t, by simp only [owners, hunreleased, hseen]; rfl, ?_⟩
        simpa [grant, Owner.number] using hid
      · rw [hothers, pending]
      · rw [hothers]
        exact h.nodup_pending
      · simp [hunreleased]
  | unseen id grant holders pending =>
      rcases h.others_of_unseen grant pending with ⟨⟨w, hseen, rfl⟩, hothers⟩
      have hsome : g.slot.grant ≠ none := by simp [grant]
      have hunreleased : g.unreleased = [] := by simpa [Gate.holders] using holders
      refine ⟨fun hnone => absurd hnone hsome, ?_, hothers.symm, ?_, h.kept.locked,
        h.slot.owned, ?_, fun _ => hsome, hlock⟩
      · intro id hid
        refine ⟨.request w, by simp only [owners, hunreleased, hseen]; rfl, ?_⟩
        simpa [grant, Owner.number] using hid
      · rw [hothers]
        exact (List.nodup_cons.1 (pending ▸ h.nodup_pending)).2
      · simp [hunreleased]

end Coherent

/-- Whatever callers do to a gate, its slot has one owner at most, and all others wait for
it in the queue. -/
theorem one_owner_run (name : String) (options : Options) (es : List Event) :
    OneOwner (Gate.run { name, options } es) :=
  ((coherent_initial name options).run es).oneOwner

end Gate
end AwardsDesk
