import AwardsDesk.Proofs.Gate.Timeouts

/-!
# Misuse of tickets

A caller may lock a ticket twice, unlock one that it has not locked, or go on using one that
it has given back.  The phase of a ticket is the caller's own, while the slot moves on to
others; but a ticket that is granted or locked owns the slot, so its phase alone settles
whether a call succeeds.  A call that is refused leaves the gate as it was, and a run into
which such calls are put goes as it would have gone without them.

Main definitions:

- Function {lit}`Gate.Event.uses?`: the ticket that an event uses.
- Inductive type {lit}`Gate.Call`: a call of a run, or one that is put into it.

Main results:

- Theorem {lit}`Gate.step_of_refused`: a refused call leaves the gate as it was.
- Theorems {lit}`Gate.run_of_refused` and {lit}`Gate.told_of_refused`: calls put into a run
  and refused change nothing in it.
- Theorem {lit}`Gate.misuse_harmless`: what the use of tickets can do after any run.
-/

namespace AwardsDesk
namespace Gate

variable {g : Gate} {id : Nat}

/-! ## The use of one ticket -/

/-- The ticket that an event uses. -/
def Event.uses? : Event → Option Nat
  | .lock id | .unlock id | .drop id => some id
  | _ => none

/-- A refused call leaves the gate as it was. -/
theorem step_of_refused {e : Event} {err : Error} (hrefused : (g.step e).2 = .refused err) :
    (g.step e).1 = g := by
  cases e with
  | acquire now => simp [step] at hrefused
  | resume now id => simp [step] at hrefused
  | cancel id =>
      simp only [step] at hrefused
      split at hrefused <;> simp at hrefused
  | lock id =>
      rcases step_lock_cases g id with ⟨err', heq⟩ | ⟨-, -, heq⟩
      · rw [heq]
      · simp [heq] at hrefused
  | unlock id =>
      rcases step_unlock_cases g id with ⟨err', heq⟩ | ⟨-, heq⟩
      · rw [heq]
      · simp [heq] at hrefused
  | drop id =>
      simp only [step] at hrefused
      split at hrefused <;> simp at hrefused

/-- A ticket that is not granted was locked or given back before, and is refused as such. -/
theorem step_lock_of_phase (hphase : g.phase id ≠ .granted) :
    ∃ fault, fault ≠ .notCurrent ∧
      g.step (.lock id) = (g, .refused (.invalidTicket g.name fault)) := by
  cases hcase : g.phase id with
  | granted => exact absurd hcase hphase
  | locked => exact ⟨.alreadyLocked, by simp, by simp [step, lock, hcase, settle]⟩
  | released => exact ⟨.alreadyReleased, by simp, by simp [step, lock, hcase, settle]⟩

/-- A ticket that is not locked cannot be unlocked, or was given back before, and is refused
as such. -/
theorem step_unlock_of_phase (hphase : g.phase id ≠ .locked) :
    ∃ fault, fault ≠ .notCurrent ∧
      g.step (.unlock id) = (g, .refused (.invalidTicket g.name fault)) := by
  cases hcase : g.phase id with
  | granted => exact ⟨.notLocked, by simp, by simp [step, unlock, hcase, settle]⟩
  | locked => exact absurd hcase hphase
  | released => exact ⟨.alreadyReleased, by simp, by simp [step, unlock, hcase, settle]⟩

namespace Coherent

/-- Locking succeeds for granted tickets and for no others. -/
theorem lock_iff (h : g.Coherent) : (∃ g', g.lock id = .ok g') ↔ g.phase id = .granted := by
  constructor
  · rintro ⟨g', hlock⟩
    exact (lock_eq_ok_iff.1 hlock).1
  · intro hphase
    exact ⟨_, h.lock_of_granted hphase⟩

/-- A ticket given back is thrown away, and nothing else changes. -/
theorem drop_of_released (h : g.Coherent) (hphase : g.phase id = .released) :
    g.drop id = { g with tickets := g.tickets.filter fun t => t.id ≠ id } := by
  rw [← tickets_drop h.kept.nodup id]
  simp [Gate.drop, hphase]

/-- Throwing away a ticket that was given back leaves all phases. -/
theorem phase_drop_of_released (h : g.Coherent) (hphase : g.phase id = .released) (n : Nat) :
    (g.drop id).phase n = g.phase n := by
  by_cases hn : n = id
  · rw [hn, hphase]
    by_contra hused
    rcases exists_ticket_of_phase hused with ⟨t, ht, hid, -⟩
    rw [tickets_drop h.kept.nodup] at ht
    simp [hid] at ht
  · exact phase_drop_ne hn

/-- Only the use of the owner's ticket changes the slot. -/
theorem slot_of_stale (h : g.Coherent) {e : Event} (huses : e.uses? = some id)
    (hg : g.slot.grant ≠ some id) : (g.step e).1.slot = g.slot := by
  cases e with
  | acquire now => simp [Event.uses?] at huses
  | resume now n => simp [Event.uses?] at huses
  | cancel n => simp [Event.uses?] at huses
  | lock n =>
      obtain rfl : n = id := Option.some.inj huses
      rcases step_lock_cases g n with ⟨err, heq⟩ | ⟨-, hgrant, -⟩
      · rw [heq]
      · exact absurd hgrant hg
  | unlock n =>
      obtain rfl : n = id := Option.some.inj huses
      rcases step_unlock_cases g n with ⟨err, heq⟩ | ⟨hphase, -⟩
      · rw [heq]
      · exact absurd (h.grant_of_locked hphase) hg
  | drop n =>
      obtain rfl : n = id := Option.some.inj huses
      have hphase : g.phase n = .released := by
        by_contra hused
        exact hg (h.owner_of_phase hused).1
      exact if_pos hphase

end Coherent

/-! ## Calls put into a run -/

/-- A call of a run, or one that is put into it. -/
inductive Call where
  | own (e : Event)
  | extra (e : Event)

namespace Call

/-- What the caller does. -/
def event : Call → Event
  | own e | extra e => e

/-- A call of the run as it was. -/
def own? : Call → Option Event
  | own e => some e
  | extra _ => none

/-- A call of the run as it was, with what was told. -/
def told? : Call × (Event × Reply) → Option (Event × Reply)
  | (own _, told) => some told
  | (extra _, _) => none

/-- All calls that are put into a run are refused when they come. -/
def ExtrasRefused (g : Gate) (calls : List Call) : Prop :=
  ∀ pre e post, calls = pre ++ .extra e :: post →
    ∃ err, ((g.run (pre.map event)).step e).2 = .refused err

variable {c : Call} {calls : List Call}

/-- When the calls put in are refused, so are those after the first call. -/
theorem ExtrasRefused.tail (h : ExtrasRefused g (c :: calls)) :
    ExtrasRefused (g.step c.event).1 calls := by
  intro pre e post hsplit
  exact h (c :: pre) e post (by rw [hsplit, List.cons_append])

/-- When the calls put in are refused, so are those in a part of the run. -/
theorem ExtrasRefused.left {pre post : List Call} (h : ExtrasRefused g (pre ++ post)) :
    ExtrasRefused g pre := by
  intro first e rest hsplit
  exact h first e (rest ++ post) (by simp [hsplit])

/-- A call put in and refused at once leaves the gate as it was. -/
theorem ExtrasRefused.step {e : Event} (h : ExtrasRefused g (.extra e :: calls)) :
    (g.step e).1 = g := by
  rcases h [] e calls rfl with ⟨err, hrefused⟩
  exact step_of_refused hrefused

end Call

/-- Calls put into a run and refused leave the gate as the run leaves it. -/
theorem run_of_refused {calls : List Call} (h : Call.ExtrasRefused g calls) :
    g.run (calls.map Call.event) = g.run (calls.filterMap Call.own?) := by
  induction calls generalizing g with
  | nil => rfl
  | cons c calls ih =>
      have hrest := ih h.tail
      cases c with
      | own e => exact hrest
      | extra e =>
          rw [List.map_cons, run_cons, hrest]
          exact congrArg (run · _) h.step

/-- Calls put into a run and refused leave what is told to the others. -/
theorem told_of_refused {calls : List Call} (h : Call.ExtrasRefused g calls) :
    (calls.zip (g.trace (calls.map Call.event))).filterMap Call.told? =
      g.trace (calls.filterMap Call.own?) := by
  induction calls generalizing g with
  | nil => rfl
  | cons c calls ih =>
      have hrest := ih h.tail
      cases c with
      | own e => exact congrArg ((e, (g.step e).2) :: ·) hrest
      | extra e => exact hrest.trans (congrArg (trace · _) h.step)

/-! ## Misuse -/

/-- What the use of tickets can do after a run that began with a new gate. -/
structure MisuseHarmless (new : Gate) (es : List Event) : Prop where
  /-- Locking a ticket succeeds if it is granted. -/
  lock_iff : ∀ t ∈ (new.run es).tickets,
    (∃ g, (new.run es).lock t.id = .ok g) ↔ t.phase = .granted
  /-- Unlocking a ticket succeeds if it is locked. -/
  unlock_iff : ∀ t ∈ (new.run es).tickets,
    (∃ g, (new.run es).unlock t.id = .ok g) ↔ t.phase = .locked
  /-- Locking any other ticket is refused and leaves the whole gate as it was. -/
  lock_refused : ∀ t ∈ (new.run es).tickets, t.phase ≠ .granted →
    ∃ fault, fault ≠ .notCurrent ∧ (new.run es).step (.lock t.id) =
      (new.run es, .refused (.invalidTicket new.name fault))
  /-- Unlocking any other ticket is refused and leaves the whole gate as it was. -/
  unlock_refused : ∀ t ∈ (new.run es).tickets, t.phase ≠ .locked →
    ∃ fault, fault ≠ .notCurrent ∧ (new.run es).step (.unlock t.id) =
      (new.run es, .refused (.invalidTicket new.name fault))
  /-- Throwing away a ticket that was given back changes nothing but that it is gone. -/
  spent : ∀ t ∈ (new.run es).tickets, t.phase = .released →
    let after := ((new.run es).step (.drop t.id)).1
    after = { new.run es with tickets := (new.run es).tickets.filter fun u => u.id ≠ t.id } ∧
      ∀ n, after.phase n = (new.run es).phase n
  /-- Whatever is done with a ticket that does not own the slot, the slot and the requests in
  hand stay as they were. -/
  stale : ∀ e id, e.uses? = some id → (new.run es).slot.grant ≠ some id →
    ((new.run es).step e).1.slot = (new.run es).slot ∧
      ((new.run es).step e).1.waiting = (new.run es).waiting
  /-- When calls are put into the run and refused, all others are told what they would have
  been told without them, and after each call the gate is as it would have been. -/
  inserted : ∀ calls : List Call, calls.filterMap Call.own? = es → Call.ExtrasRefused new calls →
    (calls.zip (new.trace (calls.map Call.event))).filterMap Call.told? = new.trace es ∧
      ∀ pre post, calls = pre ++ post →
        new.run (pre.map Call.event) = new.run (pre.filterMap Call.own?)

/-- After any run the phase of a ticket settles what can be done with it, and misuse is
harmless. -/
theorem misuse_harmless (name : String) (options : Options) (es : List Event) :
    MisuseHarmless { name, options } es := by
  generalize hnew : ({ name, options } : Gate) = new
  have hg : (new.run es).Coherent := (hnew ▸ coherent_initial name options).run es
  have hname : (new.run es).name = new.name := (settings_run new es).1
  have hphase : ∀ t ∈ (new.run es).tickets, (new.run es).phase t.id = t.phase :=
    fun t ht => phase_of_mem hg.kept.nodup ht
  constructor
  case lock_iff =>
    intro t ht
    rw [hg.lock_iff, hphase t ht]
  case unlock_iff =>
    intro t ht
    simp [unlock_eq_ok_iff, hphase t ht]
  case lock_refused =>
    intro t ht hother
    rw [← hphase t ht] at hother
    rw [← hname]
    exact step_lock_of_phase hother
  case unlock_refused =>
    intro t ht hother
    rw [← hphase t ht] at hother
    rw [← hname]
    exact step_unlock_of_phase hother
  case spent =>
    intro t ht hreleased
    rw [← hphase t ht] at hreleased
    exact ⟨hg.drop_of_released hreleased, hg.phase_drop_of_released hreleased⟩
  case stale =>
    intro e id huses hother
    refine ⟨hg.slot_of_stale huses hother, ?_⟩
    cases e with
    | acquire now => simp [Event.uses?] at huses
    | resume now n => simp [Event.uses?] at huses
    | cancel n => simp [Event.uses?] at huses
    | lock n =>
        rcases step_lock_cases (new.run es) n with ⟨err, heq⟩ | ⟨-, -, heq⟩ <;>
          exact heq ▸ rfl
    | unlock n =>
        rcases step_unlock_cases (new.run es) n with ⟨err, heq⟩ | ⟨-, heq⟩ <;>
          exact heq ▸ rfl
    | drop n => rfl
  case inserted =>
    intro calls hcalls hrefused
    refine ⟨hcalls ▸ told_of_refused hrefused, ?_⟩
    rintro pre post rfl
    exact run_of_refused hrefused.left

end Gate
end AwardsDesk
