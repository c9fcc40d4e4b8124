import AwardsDesk.Proofs.Gate.Line
import AwardsDesk.Proofs.Gate.Run
import Mathlib.Data.List.Nodup

/-!
# Tickets and requests in hand

What callers have of a gate: tickets not given back yet, and requests that wait or were
granted the slot without having seen it.  Both are known by their numbers.

Main definitions:

- Functions {lit}`Gate.holders`, {lit}`Gate.ticketIds` and {lit}`Gate.pending`.
- Structure {lit}`Gate.Kept`: the tickets fit the slot and the requests in hand.

Main results:

- Theorem {lit}`Gate.phase_of_mem`: the phase of a number is that of its ticket.
- Theorems {lit}`Gate.holders_setPhase_released`, {lit}`Gate.holders_setPhase_locked` and
  {lit}`Gate.holders_drop`: who is left with a ticket to give back.
-/

namespace AwardsDesk
namespace Gate

/-! ## Tickets and requests in hand -/

/-- The tickets that are not given back yet. -/
def unreleased (g : Gate) : List Ticket :=
  g.tickets.filter fun t => t.phase ≠ .released

/-- The numbers of the tickets that are not given back yet. -/
def holders (g : Gate) : List Nat :=
  g.unreleased.map Ticket.id

/-- The numbers of all tickets that are kept. -/
def ticketIds (g : Gate) : List Nat :=
  g.tickets.map Ticket.id

/-- The numbers of the requests that callers have in hand, in the order of their coming. -/
def pending (g : Gate) : List Nat :=
  g.waiting.map Waiting.id

variable {g : Gate} {id : Nat}

/-- A request in hand, by its number. -/
theorem isPending_iff : g.isPending id = true ↔ id ∈ g.pending := by
  simp [isPending, pending]

/-- A request that is looked for is found if it is in hand. -/
theorem find?_waiting_eq_none : g.waiting.find? (·.id == id) = none ↔ id ∉ g.pending := by
  simp [pending]

/-- A request that is found has the number that was looked for. -/
theorem mem_pending_of_find? {w : Waiting} (h : g.waiting.find? (·.id == id) = some w) :
    id ∈ g.pending := by
  by_contra hnot
  rw [← find?_waiting_eq_none, h] at hnot
  simp at hnot

/-- A request that is no longer kept is no longer in hand. -/
@[simp]
theorem pending_forget : (g.forget id).pending = g.pending.erase id :=
  map_eraseP_key Waiting.id g.waiting id

/-- A ticket not given back is a ticket. -/
theorem mem_holders : id ∈ g.holders ↔ ∃ t ∈ g.tickets, t.phase ≠ .released ∧ t.id = id := by
  simp [holders, unreleased, and_assoc]

/-- No ticket is left to give back when all are released. -/
theorem holders_eq_nil : g.holders = [] ↔ ∀ t ∈ g.tickets, t.phase = .released := by
  simp [holders, unreleased]

/-- A ticket that can still be used is one of the tickets. -/
theorem exists_ticket_of_phase (h : g.phase id ≠ .released) :
    ∃ t ∈ g.tickets, t.id = id ∧ t.phase = g.phase id := by
  unfold phase at h ⊢
  cases hfind : g.tickets.find? (·.id == id) with
  | none => simp [hfind] at h
  | some t =>
      exact ⟨t, List.mem_of_find?_eq_some hfind, by simpa using List.find?_some hfind, by simp⟩

/-- The phase of a number is that of its ticket, if no two tickets have the same one. -/
theorem phase_of_mem (hnodup : g.ticketIds.Nodup) {t : Ticket}
    (ht : t ∈ g.tickets) : g.phase t.id = t.phase := by
  unfold phase
  cases hfind : g.tickets.find? (·.id == t.id) with
  | none =>
      rw [List.find?_eq_none] at hfind
      exact absurd (hfind t ht) (by simp)
  | some u =>
      have hu : u.id = t.id := by simpa using List.find?_some hfind
      rw [List.inj_on_of_nodup_map hnodup (List.mem_of_find?_eq_some hfind) ht hu]
      rfl

/-! ## Change of phase -/

/-- A new phase leaves the numbers of the tickets. -/
@[simp]
theorem ticketIds_setPhase (p : Phase) :
    (g.setPhase id p).ticketIds = g.ticketIds := by
  rw [ticketIds, setPhase, List.map_map]
  refine List.map_congr_left fun t _ => ?_
  by_cases h : t.id = id <;> simp [h]

/-- Who has a ticket to give back after one of the tickets has a new phase. -/
theorem holders_setPhase (p : Phase) :
    (g.setPhase id p).holders =
      (g.tickets.filter fun t => if t.id = id then p ≠ .released else t.phase ≠ .released).map
        Ticket.id := by
  rw [holders, unreleased, setPhase, List.filter_map, List.map_map]
  have hfilter : g.tickets.filter ((fun t : Ticket => decide (t.phase ≠ .released)) ∘
        fun t => if t.id = id then { t with phase := p } else t) =
      g.tickets.filter fun t => if t.id = id then p ≠ .released else t.phase ≠ .released := by
    refine List.filter_congr fun t _ => ?_
    by_cases h : t.id = id <;> simp [h]
  rw [hfilter]
  refine List.map_congr_left fun t _ => ?_
  by_cases h : t.id = id <;> simp [h]

/-- A ticket given back is the holder no more. -/
theorem holders_setPhase_released :
    (g.setPhase id .released).holders = g.holders.filter (· ≠ id) := by
  rw [holders_setPhase, holders, unreleased, List.filter_map, List.filter_filter]
  congr 1
  refine List.filter_congr fun t _ => ?_
  by_cases h : t.id = id <;> simp [h]

/-- A ticket not given back stays so when it is locked. -/
theorem holders_setPhase_locked (h : ∀ t ∈ g.tickets, t.id = id → t.phase ≠ .released) :
    (g.setPhase id .locked).holders = g.holders := by
  rw [holders_setPhase, holders, unreleased]
  congr 1
  refine List.filter_congr fun t ht => ?_
  by_cases hid : t.id = id
  · simp [hid, h t ht hid]
  · simp [hid]

/-- The tickets left when one is thrown away. -/
theorem tickets_drop (hnodup : g.ticketIds.Nodup) (id : Nat) :
    (g.drop id).tickets = g.tickets.filter fun t => t.id ≠ id :=
  eraseP_key_eq_filter Ticket.id hnodup id

/-- A ticket thrown away is the holder no more. -/
theorem holders_drop (hnodup : g.ticketIds.Nodup) (id : Nat) :
    (g.drop id).holders = g.holders.filter (· ≠ id) := by
  rw [holders, unreleased, tickets_drop hnodup, holders, unreleased, List.filter_map,
    List.filter_filter, List.filter_filter]
  congr 1
  refine List.filter_congr fun t _ => ?_
  exact Bool.and_comm _ _

/-- A new ticket joins those to give back. -/
theorem holders_newTicket {g' : Gate} (htickets : g'.tickets = g.tickets ++ [({ id } : Ticket)]) :
    g'.holders = g.holders ++ [id] := by
  simp [holders, unreleased, htickets, List.filter_append]

/-- A new ticket has its number. -/
theorem ticketIds_newTicket {g' : Gate} (htickets : g'.tickets = g.tickets ++ [({ id } : Ticket)]) :
    g'.ticketIds = g.ticketIds ++ [id] := by
  simp [ticketIds, htickets]

/-! ## Tickets in order -/

/-- The tickets of a gate fit its slot and the requests in hand. -/
structure Kept (g : Gate) : Prop where
  /-- Every ticket has a number of its own. -/
  nodup : g.ticketIds.Nodup
  /-- Every ticket was asked for. -/
  le_issued : ∀ n ∈ g.ticketIds, n ≤ g.slot.issued
  /-- A ticket is no request in hand. -/
  apart : ∀ n ∈ g.ticketIds, n ∉ g.pending
  /-- A locked ticket shows on the slot. -/
  locked : ∀ t ∈ g.tickets, t.phase = .locked → g.slot.locked = true

namespace Kept

/-- Tickets still fit when some of them are gone and no request takes the number of one
that stays. -/
theorem of_sublist (h : g.Kept) {g' : Gate} (hsub : g'.ticketIds.Sublist g.ticketIds)
    (hissued : g.slot.issued ≤ g'.slot.issued) (hapart : ∀ n ∈ g.ticketIds, n ∉ g'.pending)
    (hlocked : ∀ t ∈ g'.tickets, t.phase = .locked → g'.slot.locked = true) : g'.Kept where
  nodup := h.nodup.sublist hsub
  le_issued n hn := Nat.le_trans (h.le_issued n (hsub.subset hn)) hissued
  apart n hn := hapart n (hsub.subset hn)
  locked := hlocked

/-- A new ticket fits when its number is new among the tickets and no longer in hand. -/
theorem newTicket (h : g.Kept) {g' : Gate}
    (htickets : g'.tickets = g.tickets ++ [({ id } : Ticket)]) (hnew : id ∉ g.ticketIds)
    (hid : id ≤ g'.slot.issued) (hnot : id ∉ g'.pending)
    (hissued : g.slot.issued ≤ g'.slot.issued) (hpending : g'.pending ⊆ g.pending)
    (hlocked : g'.slot.locked = g.slot.locked) : g'.Kept where
  nodup := by
    rw [ticketIds_newTicket htickets, List.nodup_append]
    refine ⟨h.nodup, by simp, ?_⟩
    intro a ha b hb heq
    rw [List.mem_singleton] at hb
    exact hnew (hb ▸ heq ▸ ha)
  le_issued n hn := by
    rw [ticketIds_newTicket htickets, List.mem_append, List.mem_singleton] at hn
    rcases hn with hold | rfl
    · exact Nat.le_trans (h.le_issued n hold) hissued
    · exact hid
  apart n hn := by
    rw [ticketIds_newTicket htickets, List.mem_append, List.mem_singleton] at hn
    rcases hn with hold | rfl
    · exact fun hmem => h.apart n hold (hpending hmem)
    · exact hnot
  locked t ht hphase := by
    rw [htickets, List.mem_append, List.mem_singleton] at ht
    rcases ht with hold | rfl
    · rw [hlocked]
      exact h.locked t hold hphase
    · exact absurd hphase (by simp)

end Kept
end Gate
end AwardsDesk
