import AwardsDesk.Proofs.Gate.Fifo

/-!
# A caller's turn

A caller that got the slot locks its ticket, does its work, and unlocks the ticket.  What
others do meanwhile does not touch the ticket, so the turn can be looked at by itself, and
the turns of a run are over one after another in the order of the grants.

Main definitions:

- Function {lit}`Gate.unlocked`: the ticket that is unlocked in an event.

Main results:

- Theorem {lit}`Gate.phase_step`: an event leaves the tickets that it is not about.
- Theorem {lit}`Gate.Coherent.unlocked_sublist_grants`: tickets are unlocked in the order
  in which the slot was granted.
-/

namespace AwardsDesk
namespace Gate

variable {g : Gate} {id n : Nat}

/-! ## Phases -/

/-- A number has the new phase if it is the one that was given it and has a ticket. -/
theorem phase_setPhase (p : Phase) :
    (g.setPhase id p).phase n =
      if n = id then (if n ∈ g.ticketIds then p else .released) else g.phase n := by
  have hpred : ((fun t : Ticket => t.id == n) ∘
      fun t : Ticket => if t.id = id then { t with phase := p } else t) = (·.id == n) := by
    funext t
    by_cases h : t.id = id <;> simp [h]
  simp only [phase, setPhase, List.find?_map, hpred]
  cases hfind : g.tickets.find? (·.id == n) with
  | none =>
      have hnot : n ∉ g.ticketIds := by simpa [ticketIds] using hfind
      simp [hnot]
  | some t =>
      have htid : t.id = n := by simpa using List.find?_some hfind
      have hmem : n ∈ g.ticketIds :=
        htid ▸ List.mem_map_of_mem (List.mem_of_find?_eq_some hfind)
      by_cases hid : n = id
      · simp [htid, hid, hid ▸ hmem]
      · simp [htid, hid]

/-- A new ticket is granted. -/
theorem phase_newTicket_self {g' : Gate}
    (htickets : g'.tickets = g.tickets ++ [({ id } : Ticket)]) (hnew : id ∉ g.ticketIds) :
    g'.phase id = .granted := by
  have hnone : g.tickets.find? (·.id == id) = none := by
    simpa [ticketIds] using hnew
  simp [phase, htickets, List.find?_append, hnone]

/-- A new ticket leaves the phases of the others. -/
theorem phase_newTicket_ne {g' : Gate}
    (htickets : g'.tickets = g.tickets ++ [({ id } : Ticket)]) (hne : n ≠ id) :
    g'.phase n = g.phase n := by
  have hnone : [({ id } : Ticket)].find? (·.id == n) = none := by
    simpa using hne.symm
  rw [phase, htickets, List.find?_append, hnone, Option.or_none, phase]

/-- A ticket thrown away leaves the phases of the others. -/
theorem phase_drop_ne (hne : n ≠ id) : (g.drop id).phase n = g.phase n := by
  rw [phase, drop, find?_eraseP_key_ne Ticket.id hne, phase]

/-- An event leaves the tickets that it is not about. -/
theorem phase_step (e : Event) (hne : n ≠ g.subject e) : (g.step e).1.phase n = g.phase n := by
  cases e with
  | acquire now =>
      simp only [step, acquire]
      split
      · exact phase_newTicket_ne rfl hne
      · rfl
  | resume now id =>
      simp only [step]
      rcases resume_cases g now id with heq | ⟨-, -, heq⟩ | ⟨-, -, heq⟩
      · rw [heq]
      · rw [heq]
        exact phase_newTicket_ne rfl hne
      · rw [heq]
        rfl
  | cancel id =>
      simp only [step, cancel]
      split <;> rfl
  | lock id =>
      rcases step_lock_cases g id with ⟨e, heq⟩ | ⟨-, -, heq⟩
      · rw [heq]
      · rw [heq]
        exact (phase_setPhase _).trans (if_neg hne)
  | unlock id =>
      rcases step_unlock_cases g id with ⟨e, heq⟩ | ⟨-, heq⟩
      · rw [heq]
      · rw [heq]
        exact (phase_setPhase _).trans (if_neg hne)
  | drop id => exact phase_drop_ne hne

/-- A number has a new ticket only if it owns the slot. -/
theorem mem_ticketIds_step {e : Event} (hid : id ∈ (g.step e).1.ticketIds) :
    id ∈ g.ticketIds ∨ (g.step e).1.slot.grant = some id := by
  cases e with
  | acquire now =>
      simp only [step, acquire] at hid ⊢
      split at hid
      · rename_i hfree
        rw [ticketIds_newTicket rfl, List.mem_append, List.mem_singleton] at hid
        rcases hid with hold | rfl
        · exact Or.inl hold
        · right
          simp [hfree, Slot.request]
      · exact Or.inl hid
  | resume now n =>
      simp only [step] at hid ⊢
      rcases resume_cases g now n with heq | ⟨-, hg, heq⟩ | ⟨-, -, heq⟩
      · rw [heq] at hid
        exact Or.inl hid
      · rw [heq] at hid ⊢
        rw [ticketIds_newTicket rfl, List.mem_append, List.mem_singleton] at hid
        rcases hid with hold | rfl
        · exact Or.inl hold
        · exact Or.inr hg
      · rw [heq] at hid
        exact Or.inl hid
  | cancel n =>
      simp only [step, cancel] at hid
      split at hid <;> exact Or.inl hid
  | lock n =>
      rcases step_lock_cases g n with ⟨e, heq⟩ | ⟨-, -, heq⟩
      · rw [heq] at hid
        exact Or.inl hid
      · rw [heq, ticketIds_setPhase] at hid
        exact Or.inl hid
  | unlock n =>
      rcases step_unlock_cases g n with ⟨e, heq⟩ | ⟨-, heq⟩
      · rw [heq] at hid
        exact Or.inl hid
      · rw [heq, ticketIds_setPhase] at hid
        exact Or.inl hid
  | drop n => exact Or.inl ((List.eraseP_sublist.map Ticket.id).subset hid)

/-- Whether an event is about the request or ticket of a number, wherever it happens. -/
def Event.About (e : Event) (id : Nat) : Prop :=
  ∀ g : Gate, g.subject e = id

/-- Events about one ticket leave all others. -/
theorem phase_run {es : List Event} (hes : ∀ e ∈ es, e.About id) (hne : n ≠ id) :
    (g.run es).phase n = g.phase n := by
  induction es generalizing g with
  | nil => rfl
  | cons e es ih =>
      have hfirst : g.subject e = id := hes e List.mem_cons_self g
      have hrest : ∀ e ∈ es, e.About id := fun e he => hes e (List.mem_cons_of_mem _ he)
      rw [run_cons, ih hrest]
      exact phase_step e (hfirst ▸ hne)

/-- No run takes a number back. -/
theorem issued_le_run (g : Gate) (es : List Event) : g.slot.issued ≤ (g.run es).slot.issued := by
  refine run_induction (P := fun g' => g.slot.issued ≤ g'.slot.issued) ?_ (Nat.le_refl _) es
  exact fun g' e hle => Nat.le_trans hle (issued_le_step g' e)

/-! ## The turn of a ticket -/

namespace Coherent

/-- A number that has a phase other than released is that of a ticket. -/
theorem mem_ticketIds_of_phase (hphase : g.phase id ≠ .released) : id ∈ g.ticketIds := by
  rcases exists_ticket_of_phase hphase with ⟨t, ht, rfl, -⟩
  exact List.mem_map_of_mem ht

/-- A request that finds the slot free has a granted ticket. -/
theorem phase_of_acquire (h : g.Coherent) {now : Nat}
    (hgranted : (g.step (.acquire now)).2 = .admitted (.granted id)) :
    id = g.slot.nextId ∧ (g.step (.acquire now)).1.phase id = .granted := by
  simp only [Gate.step, Gate.acquire] at hgranted ⊢
  split at hgranted
  · rename_i hfree
    obtain rfl : g.slot.nextId = id := by simpa using hgranted
    rw [if_pos hfree]
    exact ⟨rfl, phase_newTicket_self rfl h.nextId_notMem⟩
  · simp at hgranted

/-- A request whose turn has come has a granted ticket. -/
theorem phase_of_resume (h : g.Coherent) {now : Nat}
    (hgranted : (g.step (.resume now id)).2 = .turned .granted) :
    (g.step (.resume now id)).1.phase id = .granted := by
  simp only [Gate.step] at hgranted ⊢
  rcases resume_cases g now id with heq | ⟨hid, -, heq⟩ | ⟨-, -, heq⟩
  · simp [heq] at hgranted
  · rw [heq]
    exact phase_newTicket_self rfl fun hmem => h.kept.apart id hmem hid
  · simp [heq] at hgranted

/-- A granted ticket is locked when it is to be. -/
theorem lock_step (h : g.Coherent) (hphase : g.phase id = .granted) :
    g.lock id = .ok (g.step (.lock id)).1 ∧ (g.step (.lock id)).2 = .done ∧
      (g.step (.lock id)).1.phase id = .locked := by
  have hlock := h.lock_of_granted hphase
  have hmem : id ∈ g.ticketIds := mem_ticketIds_of_phase (by simp [hphase])
  have hstep : g.step (.lock id) =
      ({ g with slot := g.slot.lock }.setPhase id .locked, .done) := by
    rw [Gate.step, hlock, settle]
  refine ⟨?_, ?_, ?_⟩
  · rw [hstep, hlock]
  · rw [hstep]
  · rw [hstep, phase_setPhase, if_pos rfl]
    exact if_pos hmem

end Coherent

/-- A locked ticket is unlocked when it is to be. -/
theorem unlock_step (hphase : g.phase id = .locked) :
    g.unlock id = .ok (g.step (.unlock id)).1 ∧ (g.step (.unlock id)).2 = .done := by
  have hunlock := unlock_eq_ok_iff.2 ⟨hphase, rfl⟩
  rw [step, hunlock]
  exact ⟨rfl, rfl⟩

/-! ## The order of turns -/

/-- The ticket that is unlocked in an event. -/
def unlocked : Event × Reply → Option Nat
  | (.unlock id, .done) => some id
  | _ => none

/-- A ticket that is unlocked has ended. -/
theorem left_of_unlocked {told : Event × Reply} (h : unlocked told = some id) :
    left told = some id ∧ joined told = none ∧ told.1 = .unlock id := by
  unfold unlocked at h
  split at h
  · obtain rfl := Option.some.inj h
    exact ⟨rfl, rfl, rfl⟩
  · simp at h

/-- The owner of the slot after an event is a new one, or was the owner before. -/
theorem newGrant_cases (g : Gate) (e : Event) :
    g.newGrant e = (g.step e).1.slot.grant ∨
      (g.newGrant e = none ∧ (g.step e).1.slot.grant = g.slot.grant) := by
  unfold newGrant
  split
  · rename_i heq
    exact Or.inr ⟨rfl, heq⟩
  · exact Or.inl rfl

namespace Coherent

/-- A ticket that is unlocked owned the slot, and does so no more. -/
theorem grant_of_unlocked (h : g.Coherent) {e : Event}
    (hunlocked : unlocked (e, (g.step e).2) = some id) :
    g.slot.grant = some id ∧ (g.step e).1.slot.grant ≠ some id := by
  rcases left_of_unlocked hunlocked with ⟨hleft, hjoined, rfl⟩
  constructor
  · rcases step_unlock_cases g id with ⟨e, heq⟩ | ⟨hphase, -⟩
    · simp [heq, unlocked] at hunlocked
    · exact h.grant_of_locked hphase
  · intro hgrant
    have hmem : id ∈ (g.step (.unlock id)).1.slot.line := Slot.mem_line_of_grant hgrant
    rw [h.line_step, hjoined, hleft] at hmem
    exact h.slot.nodup.not_mem_erase hmem

/-- Tickets are unlocked in the order in which the slot was granted. -/
theorem unlocked_sublist_grants (h : g.Coherent) (es : List Event) :
    ((g.trace es).filterMap unlocked).Sublist (g.slot.grant.toList ++ g.grants es) := by
  induction es generalizing g with
  | nil => simp [trace]
  | cons e es ih =>
      have hrest := ih (h.step e)
      rw [trace, List.filterMap_cons, grants]
      cases hunlocked : unlocked (e, (g.step e).2) with
      | none =>
          rcases newGrant_cases g e with hnew | ⟨hnew, hsame⟩
          · rw [hnew]
            exact hrest.trans (List.sublist_append_right _ _)
          · rw [hnew, ← hsame]
            exact hrest
      | some id =>
          rcases h.grant_of_unlocked hunlocked with ⟨hgrant, hnext⟩
          have hnew : g.newGrant e = (g.step e).1.slot.grant := by
            rcases newGrant_cases g e with hnew | ⟨-, hsame⟩
            · exact hnew
            · exact absurd (hsame.trans hgrant) hnext
          rw [hgrant, hnew]
          exact hrest.cons_cons id

end Coherent
end Gate
end AwardsDesk
