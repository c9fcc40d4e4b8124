import AwardsDesk.Proofs.Desk.Accounting
import Mathlib.Tactic.SplitIfs

/-!
# Clockworks

The ticker of a poller ticks when it first runs and once in every period from then on.  It does not
run whenever a tick is due, but at some time later, and then makes all the ticks that have become
due meanwhile.  The next tick is reckoned from the last one and not from the time at which the
ticker runs, so the ticks do not drift: they are whole periods after the first.

Main definitions:

- Structure {lit}`Poller.Clockwork` and function {lit}`Poller.ticked`: what a ticker goes by, and
  what it goes by after it has run.
- Structure {lit}`Poller.Clockwork.OnTime`: the next tick is as many periods after the first as
  ticks were made.

Main results:

- Theorem {lit}`Poller.onTime_ticked`: a ticker that runs stays on time.
- Theorem {lit}`Poller.lt_of_ticked_due`: a ticker that has run is not due.
- Theorem {lit}`Poller.Clockwork.OnTime.started_eq`: a ticker that is on time and not due has made
  one tick for each period.
-/

namespace AwardsDesk

namespace Poller

/-- What a ticker goes by: the period, when it ticks next, whether it was told to stop, and how many
cycles it has started. -/
structure Clockwork where
  period : Nat
  ticker : Ticker
  told : Bool
  started : Nat

/-- What the ticker of a poller goes by. -/
def clockwork (p : Poller) : Clockwork where
  period := p.period
  ticker := p.ticker
  told := p.told
  started := p.stats.started

/-- A cycle that ends does not touch the clockwork. -/
theorem clockwork_record (p : Poller) (result : Except Board.Error Board.Outcome) :
    (p.record result).clockwork = p.clockwork := by
  simp [clockwork, record]

/-- The clockwork after the ticker has run and the cycles were started. -/
def ticked (p : Poller) (now : Nat) : Clockwork :=
  { (p.tick now).1.clockwork with started := p.stats.started + (p.tick now).2 }

/-- A ticker that runs has stopped already, stops, or makes the ticks that are due. -/
theorem ticked_cases (p : Poller) (now : Nat) :
    (p.ticker = .stopped ∧ p.ticked now = p.clockwork) ∨
      (p.told = true ∧ p.ticked now = { p.clockwork with ticker := .stopped }) ∨
      (p.told = false ∧ ∃ next, p.nextTick now = some next ∧
        p.ticked now =
          { p.clockwork with
            ticker := .due (next + ticksDue p.period next now * p.period)
            started := p.stats.started + ticksDue p.period next now }) := by
  unfold ticked tick
  cases hnext : p.nextTick now with
  | none =>
      have hstopped : p.ticker = .stopped := by
        unfold nextTick at hnext
        split at hnext <;> simp_all
      exact Or.inl ⟨hstopped, rfl⟩
  | some next =>
      cases htold : p.told with
      | true => exact Or.inr (Or.inl ⟨rfl, by simp [clockwork, htold]⟩)
      | false => exact Or.inr (Or.inr ⟨rfl, next, rfl, by simp [clockwork, htold]⟩)

/-- A ticker that runs keeps its period. -/
theorem period_ticked (p : Poller) (now : Nat) : (p.ticked now).period = p.period := by
  rcases p.ticked_cases now with ⟨-, heq⟩ | ⟨-, heq⟩ | ⟨-, next, -, heq⟩ <;> rw [heq] <;> rfl

/-- A ticker that has run once is not fresh any more. -/
theorem ticker_ticked_ne_fresh (p : Poller) (now : Nat) : (p.ticked now).ticker ≠ .fresh := by
  rcases p.ticked_cases now with ⟨hstopped, heq⟩ | ⟨-, heq⟩ | ⟨-, next, -, heq⟩
  · rw [heq]
    exact fun hfresh => by simp [clockwork, hstopped] at hfresh
  · simp [heq]
  · simp [heq]

/-- After the ticks that are due the next one is ahead, by a period at most if it was so before. -/
theorem ticksDue_spec {period : Nat} (hperiod : 0 < period) (next now : Nat) :
    now < next + ticksDue period next now * period ∧
      (next ≤ now + period → next + ticksDue period next now * period ≤ now + period) := by
  unfold ticksDue
  split_ifs with hahead
  · simpa using hahead
  · have hdivision := Nat.div_add_mod (now - next) period
    have hrest := Nat.mod_lt (now - next) hperiod
    rw [Nat.mul_comm] at hdivision
    rw [Nat.add_mul]
    omega

/-- A ticker that has run is not due. -/
theorem lt_of_ticked_due {p : Poller} {now next : Nat} (hperiod : 0 < p.period)
    (h : (p.ticked now).ticker = .due next) : now < next := by
  rcases p.ticked_cases now with ⟨hstopped, heq⟩ | ⟨-, heq⟩ | ⟨-, due, -, heq⟩
  · rw [heq] at h
    exact absurd (hstopped.symm.trans h) (by simp)
  · rw [heq] at h
    exact absurd h (by simp)
  · rw [heq] at h
    exact Ticker.due.inj h ▸ (ticksDue_spec hperiod due now).1

namespace Clockwork

/-- The first tick was, or is, at {lit}`start`, and the next one is as many periods later as ticks
were made, which is a period ahead at most. -/
structure OnTime (c : Clockwork) (start now : Nat) : Prop where
  next : c.ticker = .due (start + c.started * c.period) ∨
    c.ticker = .fresh ∧ c.started = 0 ∧ start = now
  start_le : start ≤ now
  next_le : start + c.started * c.period ≤ now + c.period

variable {c : Clockwork} {start now : Nat}

/-- A ticker that has run stays on time while time goes by. -/
theorem OnTime.later (h : c.OnTime start now) (hrun : c.ticker ≠ .fresh) {later : Nat}
    (hle : now ≤ later) : c.OnTime start later where
  next := h.next.imp_right fun hfresh => absurd hfresh.1 hrun
  start_le := Nat.le_trans h.start_le hle
  next_le := Nat.le_trans h.next_le (Nat.add_le_add_right hle _)

/-- A ticker that is on time and not due has made one tick for each period since its first. -/
theorem OnTime.started_eq (h : c.OnTime start now)
    (hahead : now < start + c.started * c.period) :
    c.started = 1 + (now - start) / c.period := by
  have hstart := h.start_le
  have hnext := h.next_le
  obtain ⟨k, hk⟩ : ∃ k, c.started = k + 1 := by
    refine Nat.exists_eq_add_one.2 (Nat.pos_of_ne_zero fun hzero => ?_)
    rw [hzero, Nat.zero_mul] at hahead
    omega
  rw [hk, Nat.succ_mul] at hnext hahead
  have hdivision : (now - start) / c.period = k :=
    Nat.div_eq_of_lt_le (by omega) (by rw [Nat.succ_mul]; omega)
  rw [hk, hdivision, Nat.add_comm]

end Clockwork

/-- The ticks that a ticker makes when it runs keep it on time. -/
theorem onTime_ticked {p : Poller} {start now : Nat} (hperiod : 0 < p.period)
    (h : p.told = false → p.clockwork.OnTime start now) (htold : (p.ticked now).told = false) :
    (p.ticked now).OnTime start now := by
  rcases p.ticked_cases now with ⟨hstopped, heq⟩ | ⟨htold', heq⟩ | ⟨htold', next, hnext, heq⟩
  · rw [heq] at htold ⊢
    exact h htold
  · rw [heq] at htold
    exact absurd (htold'.symm.trans htold) (by decide)
  · have hontime := h htold'
    have hdue : next = start + p.stats.started * p.period := by
      rcases hontime.next with hticker | ⟨hticker, hstarted, hstart⟩
      · rw [nextTick, show p.ticker = _ from hticker] at hnext
        exact (Option.some.inj hnext).symm
      · rw [nextTick, show p.ticker = _ from hticker] at hnext
        rw [show p.stats.started = 0 from hstarted, Nat.zero_mul, Nat.add_zero, hstart]
        exact (Option.some.inj hnext).symm
    have hsum : next + ticksDue p.period next now * p.period =
        start + (p.stats.started + ticksDue p.period next now) * p.period := by
      rw [hdue, Nat.add_mul, Nat.add_assoc]
    rw [heq]
    refine ⟨Or.inl (congrArg Ticker.due hsum), hontime.start_le, ?_⟩
    exact hsum ▸ (ticksDue_spec hperiod next now).2 (hdue ▸ hontime.next_le)

end Poller

end AwardsDesk
