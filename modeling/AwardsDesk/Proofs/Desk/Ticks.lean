import AwardsDesk.Proofs.Desk.Clockwork
import Mathlib.Data.List.Perm.Subperm

/-!
# Tickers have their turns

The ticker of a poller is one task among others.  It runs when it is awake and its turn comes, while
cycles start, wait and end around it.  No ticker is forgotten: one that is not awake has an alarm
for its next tick.  When the tasks of a desk have run as far as they can, every ticker has had its
turn, so none of them is due any more, however long the cycles take.

Main definitions:

- Structure {lit}`Watch.Attended`: no ticker is forgotten.
- Definition {lit}`Watch.Settled`: no ticker is due.
- Structure {lit}`Watch.Regular`: what a clockwork keeps.

Main results:

- Theorem {lit}`Watch.Attended.turn`: no task that runs forgets a ticker.
- Theorem {lit}`Watch.Attended.run`: when the tasks have run no ticker is due.
- Theorem {lit}`Watch.Regular.run`: when the tasks have run every clockwork has kept what it does.
-/

namespace AwardsDesk

/-! ## Alarms that ring -/

namespace Agenda

variable {τ : Type} [DecidableEq τ] {a : Agenda τ} {now : Nat}

/-- Waking leaves the alarms. -/
@[simp]
theorem alarms_wake (a : Agenda τ) (t : τ) : (a.wake t).alarms = a.alarms := by
  unfold wake
  split <;> rfl

/-- Setting an alarm or taking it back wakes nobody. -/
@[simp]
theorem woken_resetAlarm (a : Agenda τ) (t : τ) (time : Option Nat) :
    (a.resetAlarm t time).woken = a.woken := by
  cases time <;> rfl

/-- What alarms there are when one was set or taken back depends on those before. -/
theorem alarms_resetAlarm_congr {a b : Agenda τ} (h : a.alarms = b.alarms) (t : τ)
    (time : Option Nat) : (a.resetAlarm t time).alarms = (b.resetAlarm t time).alarms := by
  cases time <;> simp only [resetAlarm, setAlarm, clearAlarm, h]

/-- Waking many leaves the alarms, and nobody is woken twice. -/
theorem foldl_wake (xs : List (Alarm τ)) (a : Agenda τ) :
    (xs.foldl (fun b x => b.wake x.task) a).alarms = a.alarms ∧
      (a.woken.Nodup → (xs.foldl (fun b x => b.wake x.task) a).woken.Nodup) ∧
      ∀ t, t ∈ (xs.foldl (fun b x => b.wake x.task) a).woken ↔
        t ∈ a.woken ∨ ∃ x ∈ xs, x.task = t := by
  induction xs generalizing a with
  | nil => simp
  | cons x xs ih =>
      rcases ih (a.wake x.task) with ⟨halarms, hnodup, hmem⟩
      refine ⟨?_, fun h => hnodup (nodup_woken_wake h x.task), fun t => ?_⟩
      · rw [List.foldl_cons, halarms, alarms_wake]
      · rw [List.foldl_cons, hmem, mem_woken_wake, or_assoc]
        simp [eq_comm]

/-- The alarms that are not due are left. -/
theorem alarms_ring (a : Agenda τ) (now : Nat) :
    (a.ring now).alarms = a.alarms.filter fun x => decide (now < x.time) :=
  (foldl_wake _ _).1

/-- Nobody is woken twice by alarms. -/
theorem nodup_woken_ring (h : a.woken.Nodup) (now : Nat) : (a.ring now).woken.Nodup :=
  (foldl_wake _ _).2.1 h

/-- Those are awake who were, and those whose alarms were due. -/
theorem mem_woken_ring (a : Agenda τ) (now : Nat) (t : τ) :
    t ∈ (a.ring now).woken ↔ t ∈ a.woken ∨ ∃ x ∈ a.alarms, x.time ≤ now ∧ x.task = t := by
  refine ((foldl_wake _ _).2.2 t).trans (or_congr_right ?_)
  simp only [mem_due, and_assoc]

/-- The alarms of the others stay when one is set or taken back. -/
theorem mem_alarms_resetAlarm {t : τ} {x : Alarm τ} (hne : x.task ≠ t) (time : Option Nat) :
    x ∈ (a.resetAlarm t time).alarms ↔ x ∈ a.alarms := by
  have hnew : ∀ time, x ≠ { time, task := t } := fun time heq => hne (heq ▸ rfl)
  cases time <;> simp [resetAlarm, setAlarm, clearAlarm, hne, hnew]

end Agenda

/-! ## Tasks that run -/

namespace Watch

open Poller (Clockwork)

variable {w w' : Watch} {n now : Nat} {t : Task}

/-- What the ticker of a poller goes by. -/
def clockwork (w : Watch) (n : Nat) : Clockwork :=
  (w.poller n).clockwork

/-- A task that there is: the ticker of a poller, or a cycle under way. -/
def Knows (w : Watch) : Task → Prop
  | .ticker n => n < w.pollers.length
  | .cycle id => ∃ c ∈ w.cycles, c.id = id

/-- Waking leaves the alarms. -/
@[simp]
theorem alarms_wake (w : Watch) (t : Task) : (w.wake t).agenda.alarms = w.agenda.alarms :=
  Agenda.alarms_wake w.agenda t

/-- Some tasks were woken, and no ticker among them. -/
def WakesCycles (w w' : Watch) : Prop :=
  ∃ more, w'.agenda.woken = w.agenda.woken ++ more ∧ ∀ n, .ticker n ∉ more

/-- Nobody was woken. -/
theorem WakesCycles.of_eq (h : w'.agenda.woken = w.agenda.woken) : w.WakesCycles w' :=
  ⟨[], by simp [h]⟩

/-- Some tasks were woken, and then others. -/
theorem WakesCycles.trans {w₁ w₂ w₃ : Watch} (h : w₁.WakesCycles w₂) (h' : w₂.WakesCycles w₃) :
    w₁.WakesCycles w₃ := by
  rcases h with ⟨more, heq, hnone⟩
  rcases h' with ⟨more', heq', hnone'⟩
  refine ⟨more ++ more', by rw [heq', heq, List.append_assoc], fun n hn => ?_⟩
  rcases List.mem_append.1 hn with hn | hn
  · exact hnone n hn
  · exact hnone' n hn

/-- Those who were awake still are. -/
theorem WakesCycles.mem (h : w.WakesCycles w') (ht : t ∈ w.agenda.woken) : t ∈ w'.agenda.woken := by
  rcases h with ⟨more, heq, -⟩
  exact heq ▸ List.mem_append_left more ht

/-- A cycle is woken. -/
theorem wakesCycles_wake (w : Watch) (id : Nat) : w.WakesCycles (w.wake (.cycle id)) := by
  unfold wake Agenda.wake
  split
  · exact .of_eq rfl
  · exact ⟨[.cycle id], rfl, by simp⟩

/-- A cycle that was granted the gate is woken, if there is one. -/
theorem wakeGranted_cases (w : Watch) :
    w.wakeGranted = w ∨ ∃ c ∈ w.cycles, w.wakeGranted = w.wake (.cycle c.id) := by
  unfold wakeGranted
  split
  · exact Or.inl rfl
  · split
    · exact Or.inl rfl
    · rename_i c hc
      exact Or.inr ⟨c, List.mem_of_find?_eq_some hc, rfl⟩

/-- Waking a cycle leaves the pollers. -/
@[simp]
theorem pollers_wakeGranted (w : Watch) : w.wakeGranted.pollers = w.pollers := by
  rcases w.wakeGranted_cases with heq | ⟨c, -, heq⟩
  · rw [heq]
  · rw [heq]
    rfl

/-- Waking a cycle leaves the clockworks. -/
@[simp]
theorem clockwork_wakeGranted (w : Watch) (n : Nat) :
    w.wakeGranted.clockwork n = w.clockwork n := by
  simp only [clockwork, poller, pollers_wakeGranted]

/-- A tick is counted. -/
theorem clockwork_launch (hn : n < w.pollers.length) (m : Nat) :
    (w.launch n).clockwork m =
      if m = n then { w.clockwork m with started := (w.clockwork m).started + 1 }
      else w.clockwork m := by
  split_ifs with hm
  · subst hm
    rw [clockwork, poller_launch hn]
    rfl
  · rw [clockwork, poller_launch_ne hm]
    rfl

/-- Ticks are counted, and their cycles are woken. -/
theorem spawn_frame (hn : n < w.pollers.length) (k : Nat) :
    (w.spawn n k).pollers.length = w.pollers.length ∧ w.WakesCycles (w.spawn n k) ∧
      (w.spawn n k).agenda.alarms = w.agenda.alarms ∧
      ∀ m, (w.spawn n k).clockwork m =
        if m = n then { w.clockwork m with started := (w.clockwork m).started + k }
        else w.clockwork m := by
  induction k generalizing w with
  | zero => exact ⟨rfl, .of_eq rfl, rfl, fun m => (ite_self _).symm⟩
  | succ k ih =>
      have hlength : (w.launch n).pollers.length = w.pollers.length := by
        simp [Watch.launch, putPoller, wake]
      rcases ih (hlength ▸ hn) with ⟨hlength', hwakes, halarms, hclockwork⟩
      refine ⟨hlength'.trans hlength, .trans ?_ hwakes, halarms.trans ?_, fun m => ?_⟩
      · exact WakesCycles.trans (.of_eq rfl) (wakesCycles_wake _ _)
      · exact alarms_wake _ _
      · rw [spawn, hclockwork m, clockwork_launch hn m]
        split_ifs
        · simp only [Nat.add_assoc, Nat.add_comm 1 k]
        · rfl

/-- The ticker of a poller that is there runs. -/
theorem runTicker_eq (hn : n < w.pollers.length) (now : Nat) :
    w.runTicker now n =
      let p := (w.poller n).tick now
      let w' := (w.putPoller n p.1).spawn n p.2
      { w' with agenda := w'.agenda.resetAlarm (.ticker n) (p.1.nextTick now) } := by
  have hget : w.pollers[n]? = some (w.poller n) := by
    simp [poller, hn]
  simp only [runTicker, hget]

/-- What a ticker that runs does: it makes the ticks that are due and wakes their cycles. -/
theorem runTicker_frame (hn : n < w.pollers.length) (now : Nat) :
    (w.runTicker now n).pollers.length = w.pollers.length ∧ w.WakesCycles (w.runTicker now n) ∧
      (w.runTicker now n).agenda.alarms =
        (w.agenda.resetAlarm (.ticker n) (((w.poller n).tick now).1.nextTick now)).alarms ∧
      ∀ m, (w.runTicker now n).clockwork m =
        if m = n then (w.poller n).ticked now else w.clockwork m := by
  have hn' : n < (w.putPoller n ((w.poller n).tick now).1).pollers.length := by
    simpa [putPoller] using hn
  rcases spawn_frame hn' ((w.poller n).tick now).2 with ⟨hlength, hwakes, halarms, hclockwork⟩
  simp only [runTicker_eq hn]
  refine ⟨hlength.trans (by simp [putPoller]), ?_, ?_, fun m => ?_⟩
  · exact .trans (.trans (.of_eq rfl) hwakes) (.of_eq (Agenda.woken_resetAlarm _ _ _))
  · exact Agenda.alarms_resetAlarm_congr halarms _ _
  · refine (hclockwork m).trans ?_
    split_ifs with hm
    · subst hm
      rw [clockwork, poller_putPoller hn]
      simp only [Poller.ticked, Poller.clockwork, ((w.poller m).tick_spec now).1]
    · rw [clockwork, poller_putPoller_ne hm]
      rfl

/-- What a cycle that runs does: it wakes cycles at most, and no clockwork is touched. -/
theorem runCycle_frame (w : Watch) (now : Nat) (c : Cycle) :
    (w.runCycle now c).pollers.length = w.pollers.length ∧
      (w.runCycle now c).agenda.woken = w.agenda.woken ∧
      (∀ x, x.task ≠ .cycle c.id → (x ∈ (w.runCycle now c).agenda.alarms ↔ x ∈ w.agenda.alarms)) ∧
      ∀ m, (w.runCycle now c).clockwork m = w.clockwork m := by
  unfold runCycle
  simp only
  cases (c.go w.desk now).2 with
  | waiting errand =>
      exact ⟨rfl, Agenda.woken_resetAlarm _ _ _, fun x hx => Agenda.mem_alarms_resetAlarm hx _,
        fun m => rfl⟩
  | ended result =>
      refine ⟨by simp [putPoller], rfl, fun x hx => Agenda.mem_alarms_resetAlarm hx none, ?_⟩
      intro m
      rw [clockwork, clockwork]
      rcases poller_putPoller_cases { w with
          desk := (c.go w.desk now).1
          cycles := w.cycles.filter (·.id ≠ c.id)
          agenda := w.agenda.clearAlarm (.cycle c.id) }
        c.poller m ((w.poller c.poller).record result) with heq | ⟨rfl, heq⟩
      · rw [heq]
        rfl
      · rw [heq, Poller.clockwork_record]

/-- What a task that runs does to the others: it wakes cycles at most, and the clockwork that it
moves and the alarm that it sets or takes back are its own. -/
theorem runTask_frame (ht : w.Knows t) (now : Nat) :
    (w.runTask now t).pollers.length = w.pollers.length ∧ w.WakesCycles (w.runTask now t) ∧
      (∀ x ∈ w.agenda.alarms, x.task ≠ t → x ∈ (w.runTask now t).agenda.alarms) ∧
      ∀ m, (w.runTask now t).clockwork m =
        if t = .ticker m then (w.poller m).ticked now else w.clockwork m := by
  cases t with
  | ticker n =>
      rcases runTicker_frame ht now with ⟨hlength, hwakes, halarms, hclockwork⟩
      refine ⟨hlength, hwakes, fun x hx hne => ?_, fun m => (hclockwork m).trans ?_⟩
      · exact halarms.symm ▸ (Agenda.mem_alarms_resetAlarm hne _).2 hx
      · by_cases hm : m = n
        · simp [hm]
        · simp [hm, Ne.symm hm]
  | cycle id =>
      simp only [runTask, reduceCtorEq, if_false]
      cases hcycle : w.cycle? id with
      | none => exact ⟨rfl, .of_eq rfl, fun x hx _ => hx, fun m => rfl⟩
      | some c =>
          obtain rfl : c.id = id := by
            simpa using List.find?_some hcycle
          rcases w.runCycle_frame now c with ⟨hlength, hwoken, halarms, hclockwork⟩
          simp only
          rcases (w.runCycle now c).wakeGranted_cases with heq | ⟨d, -, heq⟩
          · rw [heq]
            exact ⟨hlength, .of_eq hwoken, fun x hx hne => (halarms x hne).2 hx, hclockwork⟩
          · rw [heq]
            refine ⟨hlength, .trans (.of_eq hwoken) (wakesCycles_wake _ _), fun x hx hne => ?_,
              hclockwork⟩
            rw [alarms_wake]
            exact (halarms x hne).2 hx

/-! ## Tickers that are not forgotten -/

/-- The agenda holds tasks that there are, each awake once at most, and periods are positive. -/
structure Tidy (w : Watch) : Prop where
  nodup : w.agenda.woken.Nodup
  woken : ∀ t ∈ w.agenda.woken, w.Knows t
  alarms : ∀ x ∈ w.agenda.alarms, w.Knows x.task
  period_pos : ∀ n < w.pollers.length, 0 < (w.clockwork n).period
  unstarted : ∀ n, (w.clockwork n).ticker = .fresh → (w.clockwork n).started = 0

/-- A ticker that has not stopped is awake, or nobody has told it to stop and there is an alarm for
its next tick. -/
def Awaited (w : Watch) (n : Nat) : Prop :=
  .ticker n ∈ w.agenda.woken ∨ (w.clockwork n).ticker = .stopped ∨
    ∃ next, (w.clockwork n).ticker = .due next ∧ (w.clockwork n).told = false ∧
      { time := next, task := .ticker n } ∈ w.agenda.alarms

/-- No ticker is forgotten. -/
structure Attended (w : Watch) : Prop extends w.Tidy where
  awaited : ∀ n < w.pollers.length, w.Awaited n

/-- A ticker stays awaited if its clockwork, its waking and its alarm stay. -/
theorem Awaited.of_eq (h : w.Awaited n) (hclockwork : w'.clockwork n = w.clockwork n)
    (hwoken : .ticker n ∈ w.agenda.woken → .ticker n ∈ w'.agenda.woken)
    (halarm : ∀ x ∈ w.agenda.alarms, x.task = .ticker n → x ∈ w'.agenda.alarms) :
    w'.Awaited n := by
  rcases h with h | h | ⟨next, hdue, htold, h⟩
  · exact Or.inl (hwoken h)
  · exact Or.inr (Or.inl (hclockwork ▸ h))
  · exact Or.inr (Or.inr ⟨next, hclockwork ▸ hdue, hclockwork ▸ htold, halarm _ h rfl⟩)

/-- Other cycles are under way, and those that are awake or have an alarm still are. -/
theorem Tidy.withCycles (h : w.Tidy) (desk : Desk) (spawned : Nat) (cycles : List Cycle)
    (hknows : ∀ c ∈ w.cycles,
      (.cycle c.id ∈ w.agenda.woken ∨ ∃ x ∈ w.agenda.alarms, x.task = .cycle c.id) →
        ∃ d ∈ cycles, d.id = c.id) : Tidy { w with desk, spawned, cycles } where
  nodup := h.nodup
  woken t ht := by
    cases t with
    | ticker m => exact h.woken _ ht
    | cycle id =>
        obtain ⟨c, hc, rfl⟩ := h.woken _ ht
        exact hknows c hc (Or.inl ht)
  alarms x hx := by
    have hknown := h.alarms x hx
    cases htask : x.task with
    | ticker m =>
        rw [htask] at hknown
        exact hknown
    | cycle id =>
        rw [htask] at hknown
        obtain ⟨c, hc, rfl⟩ := hknown
        exact hknows c hc (Or.inr ⟨x, hx, htask⟩)
  period_pos := h.period_pos
  unstarted := h.unstarted

/-- A task that there is is woken. -/
theorem Tidy.wake (h : w.Tidy) (ht : w.Knows t) : (w.wake t).Tidy where
  nodup := Agenda.nodup_woken_wake h.nodup t
  woken u hu := by
    rcases (Agenda.mem_woken_wake _ _ _).1 hu with hu | rfl
    · exact h.woken u hu
    · exact ht
  alarms x hx := h.alarms x (w.alarms_wake t ▸ hx)
  period_pos := h.period_pos
  unstarted := h.unstarted

/-- No ticker is forgotten when a task that there is is woken. -/
theorem Attended.wake (h : w.Attended) (ht : w.Knows t) : (w.wake t).Attended where
  toTidy := h.toTidy.wake ht
  awaited n hn :=
    (h.awaited n hn).of_eq rfl (fun hwoken => (Agenda.mem_woken_wake _ _ _).2 (Or.inl hwoken))
      fun _ hx _ => (w.alarms_wake t).symm ▸ hx

/-- A poller is put in the place of another. -/
theorem Tidy.putPoller (h : w.Tidy) {p : Poller} (hperiod : n < w.pollers.length → 0 < p.period)
    (hfresh : p.ticker = .fresh → p.stats.started = 0) : (w.putPoller n p).Tidy := by
  have hlength : (w.putPoller n p).pollers.length = w.pollers.length := by
    simp [Watch.putPoller]
  have hknows : ∀ t, w.Knows t → (w.putPoller n p).Knows t := by
    intro t ht
    cases t with
    | ticker m => exact Nat.lt_of_lt_of_eq ht hlength.symm
    | cycle id => exact ht
  have hcases : ∀ m, (w.putPoller n p).clockwork m = w.clockwork m ∨
      m = n ∧ (w.putPoller n p).clockwork m = p.clockwork := fun m =>
    (w.poller_putPoller_cases n m p).imp (congrArg Poller.clockwork)
      (And.imp_right (congrArg Poller.clockwork))
  refine ⟨h.nodup, fun t ht => hknows t (h.woken t ht), fun x hx => hknows _ (h.alarms x hx),
    fun m hm => ?_, fun m => ?_⟩
  · rw [hlength] at hm
    rcases hcases m with heq | ⟨rfl, heq⟩
    · exact heq ▸ h.period_pos m hm
    · exact heq ▸ hperiod hm
  · rcases hcases m with heq | ⟨rfl, heq⟩
    · exact heq ▸ h.unstarted m
    · exact heq ▸ hfresh

/-- The alarm of a task that there is is set or taken back. -/
theorem Tidy.resetAlarm (h : w.Tidy) (ht : w.Knows t) (time : Option Nat) :
    Tidy { w with agenda := w.agenda.resetAlarm t time } where
  nodup := (Agenda.woken_resetAlarm w.agenda t time).symm ▸ h.nodup
  woken u hu := h.woken u (Agenda.woken_resetAlarm w.agenda t time ▸ hu)
  alarms x hx := by
    by_cases hx' : x.task = t
    · exact hx' ▸ ht
    · exact h.alarms x ((Agenda.mem_alarms_resetAlarm hx' time).1 hx)
  period_pos := h.period_pos
  unstarted := h.unstarted

/-- Ticks of a ticker that has run start cycles. -/
theorem Tidy.spawn (h : w.Tidy) (hn : n < w.pollers.length)
    (hrun : (w.clockwork n).ticker ≠ .fresh) (k : Nat) : (w.spawn n k).Tidy := by
  induction k generalizing w with
  | zero => exact h
  | succ k ih =>
      have hlength : (w.launch n).pollers.length = w.pollers.length := by
        simp [Watch.launch, Watch.putPoller, Watch.wake]
      have hput : (w.putPoller n ((w.poller n).launch w.isUnderWay w.spawned)).Tidy :=
        h.putPoller (fun _ => h.period_pos n hn) fun hfresh => absurd hfresh hrun
      have hadd := hput.withCycles w.desk (w.spawned + 1)
        (w.cycles ++ [{ id := w.spawned, poller := n }]) fun c hc _ =>
          ⟨c, List.mem_append_left _ hc, rfl⟩
      refine ih (hadd.wake ⟨_, List.mem_append_right _ (List.mem_singleton_self _), rfl⟩)
        (hlength ▸ hn) ?_
      rwa [clockwork_launch hn, if_pos rfl]

/-- A ticker runs. -/
theorem Tidy.runTicker (h : w.Tidy) (hn : n < w.pollers.length) (now : Nat) :
    (w.runTicker now n).Tidy := by
  have hrun := (w.poller n).ticker_ticked_ne_fresh now
  have hput : (w.putPoller n ((w.poller n).tick now).1).Tidy := by
    refine h.putPoller (fun _ => ?_) fun hfresh => absurd hfresh hrun
    exact Nat.lt_of_lt_of_eq (h.period_pos n hn) ((w.poller n).period_ticked now).symm
  have hn' : n < (w.putPoller n ((w.poller n).tick now).1).pollers.length := by
    simpa [Watch.putPoller] using hn
  have hspawn := hput.spawn hn' (by rwa [clockwork, poller_putPoller hn]) ((w.poller n).tick now).2
  have hn'' := Nat.lt_of_lt_of_eq hn' (spawn_frame hn' ((w.poller n).tick now).2).1.symm
  rw [runTicker_eq hn]
  exact hspawn.resetAlarm (t := .ticker n) hn'' _

/-- A cycle that is not awake runs. -/
theorem Tidy.runCycle (h : w.Tidy) {c : Cycle} (hc : c ∈ w.cycles)
    (hasleep : .cycle c.id ∉ w.agenda.woken) (now : Nat) : (w.runCycle now c).Tidy := by
  have hknown : w.Knows (.cycle c.id) := ⟨c, hc, rfl⟩
  unfold Watch.runCycle
  simp only
  cases (c.go w.desk now).2 with
  | waiting errand =>
      refine (h.resetAlarm hknown _).withCycles _ w.spawned _ fun d hd _ => ?_
      exact ⟨_, List.mem_map_of_mem hd, by split <;> rfl⟩
  | ended result =>
      have hrest := (h.resetAlarm hknown none).withCycles (c.go w.desk now).1 w.spawned
        (w.cycles.filter (·.id ≠ c.id)) fun d hd hd' => ?_
      · have hsame := (w.poller c.poller).clockwork_record result
        exact hrest.putPoller (fun hn => h.period_pos c.poller hn) fun hfresh =>
          (congrArg Clockwork.started hsame).trans (h.unstarted c.poller hfresh)
      · refine ⟨d, List.mem_filter.2 ⟨hd, ?_⟩, rfl⟩
        -- The cycle that has ended is not awake, and its alarm was taken back.
        have hne : d.id ≠ c.id := by
          intro heq
          rw [heq] at hd'
          rcases hd' with hwoken | ⟨x, hx, htask⟩
          · exact hasleep hwoken
          · simp [Agenda.resetAlarm, Agenda.clearAlarm, htask] at hx
        simpa using hne

/-- The first of the tasks that are awake is about to run. -/
theorem Attended.pop {rest : List Task} (h : w.Attended) (hwoken : w.agenda.woken = t :: rest) :
    Tidy { w with agenda.woken := rest } ∧ t ∉ rest ∧ w.Knows t ∧
      ∀ n < w.pollers.length, t ≠ .ticker n → Awaited { w with agenda.woken := rest } n := by
  have hnodup := hwoken ▸ h.nodup
  refine ⟨⟨(List.nodup_cons.1 hnodup).2, fun u hu => ?_, h.alarms, h.period_pos, h.unstarted⟩,
    (List.nodup_cons.1 hnodup).1, h.woken t ?_, fun n hn hne => ?_⟩
  · exact h.woken u (hwoken ▸ List.mem_cons_of_mem t hu)
  · exact hwoken ▸ List.mem_cons_self
  · refine (h.awaited n hn).of_eq rfl (fun hn' => ?_) fun x hx _ => hx
    rw [hwoken] at hn'
    exact (List.mem_cons.1 hn').resolve_left hne.symm

/-- The agenda is tidy when a task has run that there is and is not awake. -/
theorem Tidy.runTask (h : w.Tidy) (ht : w.Knows t) (hasleep : t ∉ w.agenda.woken) (now : Nat) :
    (w.runTask now t).Tidy := by
  cases t with
  | ticker n => exact h.runTicker ht now
  | cycle id =>
      rw [Watch.runTask]
      cases hcycle : w.cycle? id with
      | none => exact h
      | some c =>
          have hc : c ∈ w.cycles := List.mem_of_find?_eq_some hcycle
          have hid : c.id = id := by
            simpa using List.find?_some hcycle
          have hrun := h.runCycle hc (hid ▸ hasleep) now
          simp only
          rcases (w.runCycle now c).wakeGranted_cases with heq | ⟨d, hd, heq⟩
          · rwa [heq]
          · rw [heq]
            exact hrun.wake ⟨d, hd, rfl⟩

/-- A ticker that has run has stopped or has an alarm for its next tick. -/
theorem awaited_runTicker (hn : n < w.pollers.length) (now : Nat) :
    (w.runTicker now n).Awaited n := by
  rcases runTicker_frame hn now with ⟨-, -, halarms, hclockwork⟩
  have hself := hclockwork n
  rw [if_pos rfl] at hself
  rcases (w.poller n).ticked_cases now with ⟨hstopped, heq⟩ | ⟨-, heq⟩ | ⟨htold, next, -, heq⟩
  · exact Or.inr (Or.inl (by rw [hself, heq]; exact hstopped))
  · exact Or.inr (Or.inl (by rw [hself, heq]))
  · refine Or.inr (Or.inr ⟨_, by rw [hself, heq], by rw [hself, heq]; exact htold, ?_⟩)
    have hticker := congrArg Clockwork.ticker heq
    have hnext : ((w.poller n).tick now).1.nextTick now =
        some (next + Poller.ticksDue (w.poller n).period next now * (w.poller n).period) := by
      rw [Poller.nextTick, show ((w.poller n).tick now).1.ticker = _ from hticker]
    rw [halarms, hnext]
    simp [Agenda.resetAlarm, Agenda.setAlarm]

/-- No ticker is forgotten when the first of the tasks that are awake runs. -/
theorem Attended.turn {rest : List Task} (h : w.Attended) (hwoken : w.agenda.woken = t :: rest)
    (now : Nat) : (({ w with agenda.woken := rest } : Watch).runTask now t).Attended := by
  rcases h.pop hwoken with ⟨htidy, hasleep, hknown, hothers⟩
  rcases runTask_frame (w := { w with agenda.woken := rest }) hknown now with
    ⟨hlength, hwakes, halarms, hclockwork⟩
  refine ⟨htidy.runTask hknown hasleep now, fun n hn => ?_⟩
  rw [hlength] at hn
  by_cases hself : t = .ticker n
  · subst hself
    exact awaited_runTicker hn now
  · refine (hothers n hn hself).of_eq ?_ hwakes.mem fun x hx htask => ?_
    · rw [hclockwork n, if_neg hself]
    · exact halarms x hx (htask ▸ Ne.symm hself)

/-- What a turn does: no poller comes or goes, cycles that are woken go behind those who wait for
their turn, and the only clockwork that moves is that of the ticker whose turn it is. -/
theorem Attended.turn_frame {rest : List Task} (h : w.Attended)
    (hwoken : w.agenda.woken = t :: rest) (now : Nat) :
    let after := ({ w with agenda.woken := rest } : Watch).runTask now t
    after.pollers.length = w.pollers.length ∧
      (∃ more, after.agenda.woken = rest ++ more ∧ ∀ n, .ticker n ∉ more) ∧
      ∀ m, after.clockwork m =
        if t = .ticker m then (w.poller m).ticked now else w.clockwork m := by
  rcases h.pop hwoken with ⟨-, -, hknown, -⟩
  rcases runTask_frame (w := { w with agenda.woken := rest }) hknown now with
    ⟨hlength, hwakes, -, hclockwork⟩
  exact ⟨hlength, hwakes, hclockwork⟩

/-- Alarms that ring forget nobody. -/
theorem Attended.ring (h : w.Attended) (now : Nat) :
    Attended { w with agenda := w.agenda.ring now } where
  nodup := Agenda.nodup_woken_ring h.nodup now
  woken t ht := by
    rcases (Agenda.mem_woken_ring _ _ _).1 ht with ht | ⟨x, hx, -, rfl⟩
    · exact h.woken t ht
    · exact h.alarms x hx
  alarms x hx := by
    rw [Agenda.alarms_ring] at hx
    exact h.alarms x (List.mem_filter.1 hx).1
  period_pos := h.period_pos
  unstarted := h.unstarted
  awaited n hn := by
    rcases h.awaited n hn with hn | hn | ⟨next, hdue, htold, hn⟩
    · exact Or.inl ((Agenda.mem_woken_ring _ _ _).2 (Or.inl hn))
    · exact Or.inr (Or.inl hn)
    · rcases Nat.lt_or_ge now next with hahead | hdue'
      · refine Or.inr (Or.inr ⟨next, hdue, htold, ?_⟩)
        rw [Agenda.alarms_ring]
        exact List.mem_filter.2 ⟨hn, by simpa using hahead⟩
      · exact Or.inl ((Agenda.mem_woken_ring _ _ _).2 (Or.inr ⟨_, hn, hdue', rfl⟩))

/-! ## Turns of the tasks -/

/-- Every ticker is awake or not due. -/
def Ahead (now : Nat) (w : Watch) : Prop :=
  ∀ n < w.pollers.length, .ticker n ∈ w.agenda.woken ∨
    ∀ next, (w.clockwork n).ticker = .due next → now < next

/-- No ticker is due, and each has stopped if it was told to. -/
def Settled (w : Watch) (now : Nat) : Prop :=
  ∀ n < w.pollers.length, (w.clockwork n).ticker = .stopped ∨
    (w.clockwork n).told = false ∧ ∃ next, (w.clockwork n).ticker = .due next ∧ now < next

/-- What one turn keeps, all turns keep. -/
theorem runTurns_induction {P : Watch → Prop} (now : Nat)
    (hturn : ∀ {w : Watch} {t rest}, P w → w.agenda.woken = t :: rest →
      P (({ w with agenda.woken := rest } : Watch).runTask now t))
    (turns : Nat) {w : Watch} (hw : P w) : P (runTurns now turns w) := by
  induction turns generalizing w with
  | zero => exact hw
  | succ turns ih =>
      rw [runTurns]
      cases hwoken : w.agenda.woken with
      | nil => exact hw
      | cons t rest => exact ih (hturn hw hwoken)

/-- Alarms that ring wake every ticker that is due. -/
theorem Attended.ahead_ring (h : w.Attended) (now : Nat) :
    Ahead now { w with agenda := w.agenda.ring now } := by
  intro n hn
  rcases (h.ring now).awaited n hn with hwoken | hstopped | ⟨next, hdue, -, halarm⟩
  · exact Or.inl hwoken
  · exact Or.inr fun next hdue => by simp [hstopped] at hdue
  · refine Or.inr fun next' hdue' => ?_
    obtain rfl := Poller.Ticker.due.inj (hdue.symm.trans hdue')
    rw [Agenda.alarms_ring] at halarm
    simpa using (List.mem_filter.1 halarm).2

/-- A ticker that has had its turn is not due. -/
theorem Ahead.turn {rest : List Task} (h : Ahead now w) (hattended : w.Attended)
    (hwoken : w.agenda.woken = t :: rest) :
    Ahead now (({ w with agenda.woken := rest } : Watch).runTask now t) := by
  rcases hattended.turn_frame hwoken now with ⟨hlength, ⟨more, hmore, -⟩, hclockwork⟩
  intro n hn
  rw [hlength] at hn
  rw [hclockwork n]
  by_cases hself : t = .ticker n
  · subst hself
    rw [if_pos rfl]
    exact Or.inr fun next hdue => Poller.lt_of_ticked_due (hattended.period_pos n hn) hdue
  · rw [if_neg hself]
    refine (h n hn).imp_left fun hn' => hmore ▸ List.mem_append_left more ?_
    exact (List.mem_cons.1 (hwoken ▸ hn')).resolve_left (Ne.symm hself)

/-- No ticker is awake after as many turns as there are tasks up to the last ticker. -/
theorem not_mem_woken_runTurns (now : Nat) {m turns : Nat} (hm : m ≤ turns) (h : w.Attended)
    (hlast : ∀ n, .ticker n ∉ w.agenda.woken.drop m) (n : Nat) :
    .ticker n ∉ (runTurns now turns w).agenda.woken := by
  induction turns generalizing w m with
  | zero =>
      obtain rfl := Nat.le_zero.1 hm
      exact hlast n
  | succ turns ih =>
      rw [runTurns]
      cases hwoken : w.agenda.woken with
      | nil => simp [hwoken]
      | cons t rest =>
          rcases (h.turn_frame hwoken now).2.1 with ⟨more, hmore, hnone⟩
          simp only
          refine ih (m := m - 1) (by omega) (h.turn hwoken now) fun n hn => ?_
          rw [hmore, List.drop_append] at hn
          rcases List.mem_append.1 hn with hn | hn
          · refine hlast n ?_
            rw [hwoken]
            cases m with
            | zero => exact List.mem_cons_of_mem t hn
            | succ m => exact hn
          · exact hnone n (List.mem_of_mem_drop hn)

/-- There are turns enough for all tasks that are awake. -/
theorem Tidy.length_woken_le (h : w.Tidy) :
    w.agenda.woken.length ≤ w.pollers.length + w.cycles.length := by
  have hsubset : w.agenda.woken ⊆
      (List.range w.pollers.length).map .ticker ++ w.cycles.map fun c => .cycle c.id := by
    intro t ht
    have hknown := h.woken t ht
    cases t with
    | ticker n => exact List.mem_append_left _ (List.mem_map_of_mem (List.mem_range.2 hknown))
    | cycle id =>
        obtain ⟨c, hc, rfl⟩ := hknown
        exact List.mem_append_right _ (List.mem_map_of_mem hc)
  simpa using (List.subperm_of_subset h.nodup hsubset).length_le

/-- When the tasks have run as far as they can, no ticker is due and none was forgotten. -/
theorem Attended.run (h : w.Attended) (now : Nat) :
    (w.run now).Attended ∧ (w.run now).Settled now := by
  have hrun := runTurns_induction (P := fun w => w.Attended ∧ Ahead now w) now
    (fun hw hwoken => ⟨hw.1.turn hwoken now, hw.2.turn hw.1 hwoken⟩) (w.turns now)
    ⟨h.ring now, h.ahead_ring now⟩
  have henough : (w.agenda.ring now).woken.length ≤ w.turns now := by
    have hle := (h.ring now).toTidy.length_woken_le
    unfold turns
    simp only at hle ⊢
    omega
  have hasleep := not_mem_woken_runTurns now henough (h.ring now) fun n => by
    simp
  refine ⟨hrun.1, fun n hn => ?_⟩
  rcases hrun.1.awaited n hn with hwoken | hstopped | ⟨next, hdue, htold, -⟩
  · exact absurd hwoken (hasleep n)
  · exact Or.inl hstopped
  · exact Or.inr ⟨htold, next, hdue, (hrun.2 n hn).resolve_left (hasleep n) next hdue⟩

/-- No poller comes or goes while the tasks run. -/
theorem Attended.length_run (h : w.Attended) (now : Nat) :
    (w.run now).pollers.length = w.pollers.length := by
  have hrun := runTurns_induction
    (P := fun v => v.Attended ∧ v.pollers.length = w.pollers.length) now
    (fun {v t rest} hv hwoken => ?_) (w.turns now) ⟨h.ring now, rfl⟩
  · exact hrun.2
  · exact ⟨hv.1.turn hwoken now, (hv.1.turn_frame hwoken now).1.trans hv.2⟩

/-! ## What tickers keep -/

/-- A poller that is told to stop is told to, and nobody else is. -/
theorem clockwork_signal_cases (w : Watch) (n m : Nat) :
    (w.signal n).clockwork m = w.clockwork m ∨
      (w.signal n).clockwork m = { w.clockwork m with told := true } := by
  unfold signal
  split
  · exact Or.inl rfl
  · rcases w.poller_putPoller_cases n m (w.poller n).signal with heq | ⟨rfl, heq⟩
    · exact Or.inl (congrArg Poller.clockwork heq)
    · exact Or.inr (congrArg Poller.clockwork heq)

/-- What holds of a clockwork at a time and is kept whenever its ticker runs or is told to stop. -/
structure Regular (C : Nat → Clockwork → Prop) : Prop where
  told : ∀ {now c}, C now c → C now { c with told := true }
  ticked : ∀ {now} {p : Poller}, 0 < p.period → C now p.clockwork → C now (p.ticked now)

namespace Regular

variable {C D : Nat → Clockwork → Prop}

/-- Two things that are kept are kept together. -/
theorem and (hC : Regular C) (hD : Regular D) : Regular fun now c => C now c ∧ D now c where
  told h := ⟨hC.told h.1, hD.told h.2⟩
  ticked hperiod h := ⟨hC.ticked hperiod h.1, hD.ticked hperiod h.2⟩

/-- A ticker keeps its period. -/
theorem period (period : Nat) : Regular fun _ c => c.period = period where
  told h := h
  ticked _ h := (Poller.period_ticked _ _).trans h

/-- A ticker that has not been told to stop stays on time. -/
theorem onTime (start : Nat) : Regular fun now c => c.told = false → c.OnTime start now where
  told _ htold := absurd htold (by simp)
  ticked hperiod h := Poller.onTime_ticked hperiod h

/-- A ticker that has run once is not fresh any more. -/
theorem ne_fresh : Regular fun _ c => c.ticker ≠ .fresh where
  told h := h
  ticked _ _ := Poller.ticker_ticked_ne_fresh _ _

/-- A ticker that has stopped makes no ticks. -/
theorem stopped (started : Nat) : Regular fun _ c => c.ticker = .stopped ∧ c.started = started where
  told h := h
  ticked := by
    intro now p _ h
    rcases p.ticked_cases now with ⟨-, heq⟩ | ⟨-, heq⟩ | ⟨-, next, hnext, -⟩
    · exact heq ▸ h
    · exact heq ▸ ⟨rfl, h.2⟩
    · have hnone : p.nextTick now = none := by
        rw [Poller.nextTick, show p.ticker = .stopped from h.1]
      exact absurd (hnone.symm.trans hnext) (by simp)

/-- The tasks run as far as they can. -/
theorem run (hC : Regular C) (h : w.Attended) (hn : n < w.pollers.length)
    (hclock : C now (w.clockwork n)) : C now ((w.run now).clockwork n) := by
  have hrun := runTurns_induction
    (P := fun w => w.Attended ∧ n < w.pollers.length ∧ C now (w.clockwork n)) now
    (fun {w t rest} hw hwoken => ?_) (w.turns now) ⟨h.ring now, hn, hclock⟩
  · exact hrun.2.2
  · rcases hw with ⟨hattended, hn, hclock⟩
    rcases hattended.turn_frame hwoken now with ⟨hlength, -, hclockwork⟩
    refine ⟨hattended.turn hwoken now, hlength.symm ▸ hn, ?_⟩
    rw [hclockwork n]
    split_ifs
    · exact hC.ticked (hattended.period_pos n hn) hclock
    · exact hclock

/-- A poller is told to stop. -/
theorem signal (hC : Regular C) (m : Nat) (hclock : C now (w.clockwork n)) :
    C now ((w.signal m).clockwork n) := by
  rcases w.clockwork_signal_cases m n with heq | heq
  · exact heq ▸ hclock
  · exact heq ▸ hC.told hclock

end Regular

/-! ## What is done while no task runs -/

/-- The pollers that are there do not notice that one is started. -/
theorem poller_addPoller (hn : n < w.pollers.length) (period : Nat) :
    (w.addPoller period).1.poller n = w.poller n := by
  simp [poller, addPoller, Watch.wake, List.getElem?_append_left hn]

/-- The poller that is started has not done anything yet. -/
theorem poller_addPoller_self (w : Watch) (period : Nat) :
    (w.addPoller period).1.poller w.pollers.length = { period } := by
  simp [poller, addPoller, Watch.wake]

/-- One poller more is there. -/
theorem length_addPoller (w : Watch) (period : Nat) :
    (w.addPoller period).1.pollers.length = w.pollers.length + 1 := by
  simp [addPoller, Watch.wake]

/-- A poller that is there is told to stop. -/
theorem Attended.signal (h : w.Attended) (hn : n < w.pollers.length) : (w.signal n).Attended := by
  unfold Watch.signal
  split
  · exact h
  · have hput : (w.putPoller n (w.poller n).signal).Tidy :=
      h.putPoller (fun hn => h.period_pos n hn) (h.unstarted n)
    have hlength : (w.putPoller n (w.poller n).signal).pollers.length = w.pollers.length := by
      simp [Watch.putPoller]
    have hwake := Nat.lt_of_lt_of_eq hn hlength.symm
    refine ⟨hput.wake (t := .ticker n) hwake, fun m hm => ?_⟩
    have hm' : m < w.pollers.length := Nat.lt_of_lt_of_eq hm hlength
    by_cases hself : m = n
    · subst hself
      exact Or.inl ((Agenda.mem_woken_wake _ _ _).2 (Or.inr rfl))
    · refine (h.awaited m hm').of_eq ?_ (fun hwoken => ?_) fun x hx _ => ?_
      · exact congrArg Poller.clockwork (poller_putPoller_ne hself _)
      · exact (Agenda.mem_woken_wake _ _ _).2 (Or.inl hwoken)
      · rw [alarms_wake]
        exact hx

/-- A poller with a period is started. -/
theorem Attended.addPoller (h : w.Attended) {period : Nat} (hperiod : 0 < period) :
    (w.addPoller period).1.Attended := by
  have hlength := w.length_addPoller period
  have hknows : ∀ t, w.Knows t → (w.addPoller period).1.Knows t := by
    intro t ht
    cases t with
    | ticker n => exact Nat.lt_of_lt_of_eq (Nat.lt_succ_of_lt ht) hlength.symm
    | cycle id => exact ht
  have hclockwork : ∀ n < w.pollers.length,
      (w.addPoller period).1.clockwork n = w.clockwork n := fun n hn =>
    congrArg Poller.clockwork (poller_addPoller hn period)
  have hnew : (w.addPoller period).1.clockwork w.pollers.length = Poller.clockwork { period } :=
    congrArg Poller.clockwork (w.poller_addPoller_self period)
  have hcases : ∀ n < (w.addPoller period).1.pollers.length,
      n < w.pollers.length ∨ n = w.pollers.length := by
    intro n hn
    rw [hlength] at hn
    exact Nat.lt_succ_iff_lt_or_eq.1 hn
  refine
    { nodup := Agenda.nodup_woken_wake h.nodup _
      woken := ?woken
      alarms := ?alarms
      period_pos := ?period_pos
      unstarted := ?unstarted
      awaited := ?awaited }
  case woken =>
    intro t ht
    rcases (Agenda.mem_woken_wake _ _ _).1 ht with ht | rfl
    · exact hknows t (h.woken t ht)
    · exact Nat.lt_of_lt_of_eq (Nat.lt_succ_self _) hlength.symm
  case alarms =>
    intro x hx
    refine hknows x.task (h.alarms x ?_)
    simpa [Watch.addPoller] using hx
  case period_pos =>
    intro n hn
    rcases hcases n hn with hn | rfl
    · exact hclockwork n hn ▸ h.period_pos n hn
    · exact hnew ▸ hperiod
  case unstarted =>
    intro n hfresh
    have hstats := (Alike.of_addPoller w period).stats n
    rw [clockwork, Poller.clockwork, hstats]
    rcases Nat.lt_or_ge n w.pollers.length with hn | hn
    · exact h.unstarted n (hclockwork n hn ▸ hfresh)
    · rw [poller_of_length_le hn]
  case awaited =>
    intro n hn
    rcases hcases n hn with hn | rfl
    · refine (h.awaited n hn).of_eq (hclockwork n hn) (fun hwoken => ?_) fun x hx _ => ?_
      · exact (Agenda.mem_woken_wake _ _ _).2 (Or.inl hwoken)
      · simpa [Watch.addPoller] using hx
    · exact Or.inl ((Agenda.mem_woken_wake _ _ _).2 (Or.inr rfl))

/-- Somebody does something at the desk. -/
theorem Attended.withDesk (h : w.Attended) (desk : Desk) : Attended { w with desk } where
  toTidy := h.toTidy.withCycles desk w.spawned w.cycles fun c hc _ => ⟨c, hc, rfl⟩
  awaited := h.awaited

/-- A cycle that was granted the gate meanwhile is woken. -/
theorem Attended.wakeGranted (h : w.Attended) : w.wakeGranted.Attended := by
  rcases w.wakeGranted_cases with heq | ⟨c, hc, heq⟩
  · exact heq.symm ▸ h
  · rw [heq]
    exact h.wake (t := .cycle c.id) ⟨c, hc, rfl⟩

end Watch
end AwardsDesk
