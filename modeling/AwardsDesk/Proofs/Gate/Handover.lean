import AwardsDesk.Proofs.Gate.Run

/-!
# Handing the slot over

An owner that gives its slot back sends signals to the waiters, one after another, until one is
there to get it.  That is a loop, and its turns are what this module is about: the loop ends, it
leaves the slot as {lit}`Slot.release` has it, and it passes by nobody who is there.

Main definitions:

- Structure {lit}`Passing` and function {lit}`Passing.turn`: the loop and one turn of it.
- Inductive type {lit}`Passing.Ends`: the loop ends.
- Inductive type {lit}`Slot.PassedTo`: to whom the slot has gone, and past whom.

Main results:

- Theorems {lit}`Slot.ends_handOver` and {lit}`Passing.Ends.unique`: the loop ends, and in one way.
- Theorem {lit}`Slot.release_passes_on`: the slot goes to the first waiter that is live.
-/

namespace AwardsDesk
namespace Gate

/-! ## The loop -/

/-- A slot that is being handed over, and the signals sent so far: to whom, and whether it was there
to get it. -/
structure Passing where
  slot : Slot
  signals : List (Nat × Bool) := []
deriving DecidableEq

namespace Passing

/-- One turn of the loop: as long as the slot has no owner, the first waiter leaves the queue and is
sent a signal, and it owns the locked slot if it gets the signal. -/
def turn (p : Passing) : Option Passing :=
  match p.slot.grant, p.slot.waiters with
  | none, w :: rest =>
    some
      { slot :=
          if w.live then { p.slot with locked := true, grant := some w.id, waiters := rest }
          else { p.slot with waiters := rest }
        signals := p.signals ++ [(w.id, w.live)] }
  | _, _ => none

/-- The loop ends after some turns. -/
inductive Ends : Passing → Passing → Prop where
  | done {p : Passing} (h : p.turn = none) : Ends p p
  | turn {p q r : Passing} (h : p.turn = some q) (rest : Ends q r) : Ends p r

/-- The loop ends in one way only. -/
theorem Ends.unique {p q r : Passing} (h : Ends p q) (h' : Ends p r) : q = r := by
  induction h with
  | done hnone =>
      cases h' with
      | done _ => rfl
      | turn hsome _ => simp [hnone] at hsome
  | turn hsome _ ih =>
      cases h' with
      | done hnone => simp [hnone] at hsome
      | turn hsome' rest' => exact ih (Option.some.inj (hsome'.symm.trans hsome) ▸ rest')

end Passing

/-! ## What the loop comes to -/

namespace Slot

/-- The slot as its owner leaves it. -/
def vacated (s : Slot) : Slot :=
  { s with locked := false, grant := none }

/-- The signals that are sent to waiters in order: one to each that is not live, until one gets
it. -/
def signals : List Waiter → List (Nat × Bool)
  | [] => []
  | w :: rest => (w.id, w.live) :: if w.live then [] else signals rest

variable {s : Slot} {w : Waiter} {rest : List Waiter}

/-- A waiter that is live gets the slot. -/
theorem handOver_of_live (hw : s.waiters = w :: rest) (hlive : w.live = true) :
    s.handOver = { s with locked := true, grant := some w.id, waiters := rest } := by
  simp [handOver, hw, hlive]

/-- A waiter that is not live is passed by. -/
theorem handOver_of_not_live (hw : s.waiters = w :: rest) (hlive : w.live = false) :
    s.handOver = handOver { s with waiters := rest } := by
  simp [handOver, hw, hlive]

/-- Without waiters there is nothing to do. -/
theorem handOver_of_nil (hw : s.waiters = []) : s.handOver = s := by
  cases s
  simp_all [handOver]

/-- The loop over an ownerless slot ends with the slot handed over. -/
theorem ends_handOver (hgrant : s.grant = none) (sent : List (Nat × Bool)) :
    Passing.Ends { slot := s, signals := sent }
      { slot := s.handOver, signals := sent ++ signals s.waiters } := by
  -- Every turn takes one waiter out of the queue, and the signals sent before it stay.
  induction hqueue : s.waiters generalizing s sent with
  | nil =>
      rw [handOver_of_nil hqueue, signals, List.append_nil]
      exact .done (by simp [Passing.turn, hgrant, hqueue])
  | cons w rest ih =>
      rw [signals]
      cases hlive : w.live with
      | true =>
          have hturn : Passing.turn { slot := s, signals := sent } =
              some { slot := s.handOver, signals := sent ++ [(w.id, true)] } := by
            simp [Passing.turn, hgrant, hqueue, hlive, handOver_of_live hqueue hlive]
          refine .turn hturn (.done ?_)
          simp [Passing.turn, handOver_of_live hqueue hlive]
      | false =>
          have hturn : Passing.turn { slot := s, signals := sent } =
              some { slot := { s with waiters := rest }, signals := sent ++ [(w.id, false)] } := by
            simp [Passing.turn, hgrant, hqueue, hlive]
          have hrest := ih (s := { s with waiters := rest }) hgrant (sent ++ [(w.id, false)]) rfl
          rw [List.append_assoc, List.singleton_append] at hrest
          rw [handOver_of_not_live hqueue hlive]
          exact .turn hturn hrest

/-- To whom a slot has gone that was given back, and which signals were sent: those before the first
live waiter have been passed by, and it alone got a signal; or nobody was live. -/
inductive PassedTo (s : Slot) : Slot → List (Nat × Bool) → Prop where
  | heir {dead rest : List Waiter} {w : Waiter} (queue : s.waiters = dead ++ w :: rest)
      (passedBy : ∀ v ∈ dead, v.live = false) (live : w.live = true) :
      PassedTo s { s with locked := true, grant := some w.id, waiters := rest }
        (dead.map (fun v => (v.id, false)) ++ [(w.id, true)])
  | nobody (passedBy : ∀ v ∈ s.waiters, v.live = false) :
      PassedTo s { s with locked := false, grant := none, waiters := [] }
        (s.waiters.map fun v => (v.id, false))

/-- One more waiter has been passed by. -/
theorem PassedTo.cons {s' : Slot} {sent : List (Nat × Bool)} (hw : s.waiters = w :: rest)
    (hlive : w.live = false) (h : PassedTo { s with waiters := rest } s' sent) :
    s.PassedTo s' ((w.id, false) :: sent) := by
  cases h with
  | @heir dead rest' v queue passedBy live =>
      have hqueue : s.waiters = (w :: dead) ++ v :: rest' := by
        rw [hw, show rest = dead ++ v :: rest' from queue, List.cons_append]
      exact .heir hqueue (List.forall_mem_cons.2 ⟨hlive, passedBy⟩) live
  | nobody passedBy =>
      have hall : ∀ v ∈ s.waiters, v.live = false := by
        rw [hw]
        exact List.forall_mem_cons.2 ⟨hlive, passedBy⟩
      have hnobody := PassedTo.nobody hall
      rwa [hw] at hnobody

/-- A slot that is given back goes to the first waiter that is live, if there is one. -/
theorem passedTo_handOver (s : Slot) : s.PassedTo s.vacated.handOver (signals s.waiters) := by
  induction hqueue : s.waiters generalizing s with
  | nil =>
      have hnobody := PassedTo.nobody (s := s) (by simp [hqueue])
      rw [handOver_of_nil (s := s.vacated) hqueue, vacated]
      simpa [hqueue, signals] using hnobody
  | cons w rest ih =>
      rw [signals]
      cases hlive : w.live with
      | true =>
          rw [handOver_of_live (s := s.vacated) hqueue hlive]
          exact .heir (show s.waiters = [] ++ w :: rest from hqueue) (by simp) hlive
      | false =>
          rw [handOver_of_not_live (s := s.vacated) hqueue hlive]
          exact .cons hqueue hlive (ih { s with waiters := rest } rfl)

/-- The waiter that got a signal owns the slot, and nobody else does. -/
theorem PassedTo.grant_eq_some_iff {s' : Slot} {sent : List (Nat × Bool)} (h : s.PassedTo s' sent)
    (id : Nat) : s'.grant = some id ↔ (id, true) ∈ sent := by
  cases h with
  | heir queue passedBy live => simp [eq_comm]
  | nobody passedBy => simp

/-- The owner gives the slot back and it is handed over. -/
theorem release_of_eq {id : Nat} (h : s.grant = some id) : s.release id = s.vacated.handOver :=
  if_pos h

end Slot

/-- A waiting request that goes on is granted the slot if it owns it. -/
theorem resume_eq_granted_iff (g : Gate) (now id : Nat) :
    (g.resume now id).2 = .granted ↔ g.isPending id ∧ g.slot.grant = some id := by
  rw [isPending, List.any_eq_true, ← List.find?_isSome]
  unfold resume
  cases g.waiting.find? (·.id == id) with
  | none => simp
  | some w =>
      by_cases hgrant : g.slot.grant = some id
      · simp [hgrant]
      · by_cases hdue : w.deadline ≤ now <;> simp [hgrant, hdue]

namespace Slot

/-- When the owner gives the slot back, the loop over the waiters ends, in one way: the slot has
gone to the first waiter that is live, past all those before it and with the others left in order,
or nobody is live and it is free.  Of the waiting requests just the one that got a signal goes on
with the slot.  When anybody else gives the slot back nothing changes. -/
theorem release_passes_on (s : Slot) (id : Nat) :
    (s.grant = some id → ∃ sent,
      (∀ p, Passing.Ends { slot := s.vacated } p ↔ p = { slot := s.release id, signals := sent }) ∧
      s.PassedTo (s.release id) sent ∧
      ∀ g : Gate, g.slot = s.release id → ∀ now r,
        (g.resume now r).2 = .granted ↔ g.isPending r ∧ (r, true) ∈ sent) ∧
    (s.grant ≠ some id → s.release id = s) := by
  refine ⟨fun hgrant => ⟨signals s.waiters, ?_⟩, release_of_ne⟩
  have hpassed := s.passedTo_handOver
  have hends := ends_handOver (s := s.vacated) rfl []
  rw [release_of_eq hgrant]
  refine ⟨fun p => ⟨fun hp => hp.unique hends, ?_⟩, hpassed, ?_⟩
  · rintro rfl
    exact hends
  · intro g hg now r
    rw [resume_eq_granted_iff, hg, hpassed.grant_eq_some_iff]

/-- A slot whose owner gives it back while two of four waiters are not live. -/
theorem release_passes_on_past_two :
    let s : Slot :=
      { locked := true, grant := some 1, issued := 5,
        waiters := [⟨2, false⟩, ⟨3, false⟩, ⟨4, true⟩, ⟨5, true⟩] }
    s.grant = some 1 ∧
      s.PassedTo (s.release 1) [(2, false), (3, false), (4, true)] ∧
      s.release 1 = { locked := true, grant := some 4, issued := 5, waiters := [⟨5, true⟩] } ∧
      s.release 4 = s := by
  intro s
  rcases (s.release_passes_on 1).1 rfl with ⟨sent, hends, hpassed, -⟩
  have hsent : sent = [(2, false), (3, false), (4, true)] := by
    have hloop := ends_handOver (s := s.vacated) rfl []
    exact (congrArg Passing.signals ((hends _).1 hloop)).symm
  exact ⟨rfl, hsent ▸ hpassed, by decide, (s.release_passes_on 4).2 (by decide)⟩

end Slot
end Gate
end AwardsDesk
