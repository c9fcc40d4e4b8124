import AwardsDesk.Desk.Watch

/-!
# Accounts of pollers

Cycles of pollers overlap, end in any order and share the desk with everybody else.  In
every run, whichever task runs when and whatever is done at the desk, the count of a
poller adds up: each of its cycles has been started once, and is under way or has ended
and been counted once, by what its refresh came to.  The cycles that a poller keeps until
its end include all its cycles under way, although those that have ended are struck from
time to time.  So a poller is not over before its last cycle has been counted, and what it
counted then stays.

Main definitions:

- Inductive type {lit}`Watch.Deed` and functions {lit}`Watch.deed` and {lit}`Watch.deeds`:
  whatever happens, in any order.
- Function {lit}`Watch.endings`: the cycles that ended in a run.
- Structures {lit}`Watch.Accounts` and {lit}`Watch.Closed`: the count of a poller adds up,
  and is final.

Main results:

- Theorem {lit}`Watch.Ledger.course`: whatever happens, the books stay right.
- Theorem {lit}`Watch.Closed.course`: whatever happens, a poller that is over stays so.
- Theorem {lit}`Watch.accounts_deeds`: the count of every poller adds up in every run.
-/

namespace AwardsDesk

open Board (Error Outcome)

namespace Poller

/-! ## Verdicts -/

/-- What a refresh came to. -/
inductive Verdict where
  | succeeded
  /-- The wait for the gate was given up. -/
  | timedOut
  | failed
deriving DecidableEq

/-- What a refresh with this result came to. -/
def verdict : Except Error Outcome → Verdict
  | .ok _ => .succeeded
  | .error (.gate (.timeout ..)) => .timedOut
  | .error _ => .failed

namespace Stats

/-- How many cycles came to this. -/
def count (s : Stats) : Verdict → Nat
  | .succeeded => s.succeeded
  | .timedOut => s.timedOut
  | .failed => s.failed

/-- How many cycles have ended. -/
def ended (s : Stats) : Nat :=
  s.succeeded + s.failed + s.timedOut

/-- A cycle that ends is counted as what its refresh came to, and as nothing else. -/
theorem count_record (s : Stats) (result : Except Error Outcome) (v : Verdict) :
    (s.record result).count v = s.count v + if verdict result = v then 1 else 0 := by
  rcases result with e | o
  · rcases e with g | _ | _ | _ | _ | _
    · cases g <;> cases v <;> rfl
    all_goals cases v <;> rfl
  · cases v <;> rfl

/-- A cycle that ends is counted once. -/
theorem ended_record (s : Stats) (result : Except Error Outcome) :
    (s.record result).ended = s.ended + 1 := by
  unfold record ended
  split
  · simp only
    omega
  · split <;> simp only <;> omega

/-- A cycle that ends was started before. -/
@[simp]
theorem started_record (s : Stats) (result : Except Error Outcome) :
    (s.record result).started = s.started := by
  unfold record
  split
  · rfl
  · split <;> rfl

end Stats

/-- A ticker that runs counts nothing yet. -/
theorem tick_spec (p : Poller) (now : Nat) :
    (p.tick now).1.stats = p.stats ∧ (p.tick now).1.kept = p.kept ∧
      (p.ticker = .stopped → p.tick now = (p, 0)) ∧
      ((p.tick now).2 ≠ 0 → (p.tick now).1.ticker ≠ .stopped) := by
  unfold tick
  cases hnext : p.nextTick now with
  | none => simp
  | some next =>
      have hticker : p.ticker ≠ .stopped := by
        intro hstopped
        simp [nextTick, hstopped] at hnext
      cases p.told <;> simp [hticker]

end Poller

namespace Watch

variable {w w' : Watch}

/-! ## Runs -/

/-- Something that happens to a desk with pollers. -/
inductive Deed where
  /-- Somebody else does something at the desk, the backend comes to be another, alarms ring:
  the desk and the agenda are these now. -/
  | outside (desk : Desk) (agenda : Agenda Task)
  /-- A poller is started. -/
  | addPoller (period : Nat)
  /-- A poller is told to stop. -/
  | signal (poller : Nat)
  /-- A ticker or a cycle runs, be it awake or not. -/
  | task (now : Nat) (t : Task)
  /-- A ticker that has not stopped yet makes one tick, though the poller may have been told
  to stop. -/
  | tick (poller : Nat)

/-- One thing happens. -/
def deed (w : Watch) : Deed → Watch
  | .outside desk agenda => { w with desk, agenda }
  | .addPoller period => (w.addPoller period).1
  | .signal n => w.signal n
  | .task now t => w.runTask now t
  | .tick n =>
    if n < w.pollers.length ∧ (w.poller n).ticker ≠ .stopped then w.launch n else w

/-- One thing happens after another. -/
def deeds (w : Watch) (ds : List Deed) : Watch :=
  ds.foldl deed w

/-- A cycle that has ended, and the result of its refresh. -/
structure Ending where
  id : Nat
  poller : Nat
  result : Except Error Outcome

/-- The cycle that ends in something that happens, if one does. -/
def ending? (w : Watch) : Deed → Option Ending
  | .task now (.cycle id) =>
    (w.cycle? id).bind fun c =>
      match (c.go w.desk now).2 with
      | .ended result => some { id, poller := c.poller, result }
      | .waiting _ => none
  | _ => none

/-- The cycles that end in a run. -/
def endings (w : Watch) : List Deed → List Ending
  | [] => []
  | d :: ds => (w.ending? d).toList ++ endings (w.deed d) ds

/-- How many cycles of a poller are under way. -/
def underWay (w : Watch) (n : Nat) : Nat :=
  w.cycles.countP (·.poller = n)

/-- How many cycles of a poller have come to this. -/
def tally (log : List Ending) (n : Nat) (v : Poller.Verdict) : Nat :=
  log.countP fun e => e.poller = n ∧ Poller.verdict e.result = v

/-! ## Pollers -/

/-- A poller that is there is put in its place. -/
theorem poller_putPoller {n : Nat} (hn : n < w.pollers.length) (p : Poller) :
    (w.putPoller n p).poller n = p := by
  simp [poller, putPoller, hn]

/-- The other pollers stay as they are. -/
theorem poller_putPoller_ne {m n : Nat} (hne : m ≠ n) (p : Poller) :
    (w.putPoller n p).poller m = w.poller m := by
  simp [poller, putPoller, List.getElem?_set_ne hne.symm]

/-- What stands in the place of a poller. -/
theorem poller_putPoller_cases (w : Watch) (n m : Nat) (p : Poller) :
    (w.putPoller n p).poller m = w.poller m ∨ m = n ∧ (w.putPoller n p).poller m = p := by
  by_cases hm : m = n
  · subst hm
    rcases Nat.lt_or_ge m w.pollers.length with hlt | hge
    · exact Or.inr ⟨rfl, poller_putPoller hlt p⟩
    · left
      simp [poller, putPoller, hge]
  · exact Or.inl (poller_putPoller_ne hm p)

/-- No poller comes or goes when one is told to stop. -/
@[simp]
theorem length_signal (w : Watch) (n : Nat) :
    (w.signal n).pollers.length = w.pollers.length := by
  unfold signal
  split
  · rfl
  · simp [putPoller, wake]

/-- A number that no poller has stands for one that has done nothing. -/
theorem poller_of_length_le {n : Nat} (hn : w.pollers.length ≤ n) :
    w.poller n = { period := 0 } := by
  have hnone : w.pollers[n]? = none := List.getElem?_eq_none hn
  simp only [poller, List.getD_eq_getElem?_getD, hnone]
  rfl

/-- A poller that keeps a cycle is there. -/
theorem lt_length_of_mem_kept {n id : Nat} (h : id ∈ (w.poller n).kept) :
    n < w.pollers.length := by
  rcases Nat.lt_or_ge n w.pollers.length with hn | hn
  · exact hn
  · rw [poller_of_length_le hn] at h
    exact absurd h List.not_mem_nil

/-- A poller that starts a cycle counts and keeps it. -/
theorem poller_launch {n : Nat} (hn : n < w.pollers.length) :
    (w.launch n).poller n = (w.poller n).launch w.isUnderWay w.spawned :=
  poller_putPoller hn _

/-- The other pollers do not notice that a cycle is started. -/
theorem poller_launch_ne {m n : Nat} (hne : m ≠ n) : (w.launch n).poller m = w.poller m :=
  poller_putPoller_ne hne _

/-- The cycle that is started is under way. -/
theorem cycles_launch (w : Watch) (n : Nat) :
    (w.launch n).cycles = w.cycles ++ [{ id := w.spawned, poller := n }] :=
  rfl

/-- One more cycle of that poller is under way. -/
theorem underWay_launch (w : Watch) (n m : Nat) :
    (w.launch n).underWay m = w.underWay m + if n = m then 1 else 0 := by
  rw [underWay, underWay, cycles_launch, List.countP_append, List.countP_singleton]
  simp only [decide_eq_true_eq]

/-! ## Courses -/

/-- A cycle under way: its number and its poller. -/
def Cycle.tag (c : Cycle) : Nat × Nat :=
  (c.id, c.poller)

/-- Nothing is entered into the books: the same cycles are under way, the pollers count and
keep what they did, and those that have stopped have stopped. -/
structure Alike (w w' : Watch) : Prop where
  tags : w'.cycles.map Cycle.tag = w.cycles.map Cycle.tag
  spawned : w'.spawned = w.spawned
  stats : ∀ n, (w'.poller n).stats = (w.poller n).stats
  kept : ∀ n, (w'.poller n).kept = (w.poller n).kept
  stopped : ∀ n, (w.poller n).ticker = .stopped → (w'.poller n).ticker = .stopped

/-- A cycle is over and counted. -/
def conclude (w : Watch) (c : Cycle) (result : Except Error Outcome) : Watch :=
  { w with cycles := w.cycles.filter (·.id ≠ c.id) }.putPoller c.poller
    ((w.poller c.poller).record result)

/-- The poller of a cycle that is over counts it. -/
theorem poller_conclude {c : Cycle} (hc : c.poller < w.pollers.length)
    (result : Except Error Outcome) :
    (w.conclude c result).poller c.poller = (w.poller c.poller).record result :=
  poller_putPoller hc _

/-- The other pollers do not notice that a cycle is over. -/
theorem poller_conclude_ne {c : Cycle} {m : Nat} (hne : m ≠ c.poller)
    (result : Except Error Outcome) : (w.conclude c result).poller m = w.poller m :=
  poller_putPoller_ne hne _

/-- The other cycles stay under way. -/
theorem cycles_conclude (w : Watch) (c : Cycle) (result : Except Error Outcome) :
    (w.conclude c result).cycles = w.cycles.filter (·.id ≠ c.id) :=
  rfl

/-- One cycle of those under way, and the others. -/
theorem perm_cons_filter {cycles : List Cycle} {c : Cycle} (hnodup : (cycles.map (·.id)).Nodup)
    (hc : c ∈ cycles) : cycles.Perm (c :: cycles.filter (·.id ≠ c.id)) := by
  induction cycles with
  | nil => exact absurd hc List.not_mem_nil
  | cons d cycles ih =>
      rw [List.map_cons, List.nodup_cons] at hnodup
      obtain ⟨hfresh, hnodup⟩ := hnodup
      rcases List.mem_cons.1 hc with rfl | hc
      · have hothers : cycles.filter (·.id ≠ c.id) = cycles := by
          apply List.filter_eq_self.2
          intro d hd
          have hne : d.id ≠ c.id := fun heq => hfresh (heq ▸ List.mem_map_of_mem hd)
          simpa using hne
        rw [List.filter_cons_of_neg (by simp), hothers]
      · have hne : d.id ≠ c.id := fun heq => hfresh (heq ▸ List.mem_map_of_mem hc)
        rw [List.filter_cons_of_pos (by simpa using hne)]
        exact ((ih hnodup hc).cons d).trans (.swap c d _)

/-- One cycle of its poller less is under way. -/
theorem underWay_conclude {c : Cycle} (hnodup : (w.cycles.map (·.id)).Nodup) (hc : c ∈ w.cycles)
    (result : Except Error Outcome) (m : Nat) :
    w.underWay m = (w.conclude c result).underWay m + if c.poller = m then 1 else 0 := by
  rw [underWay, underWay, (perm_cons_filter hnodup hc).countP_eq, List.countP_cons,
    cycles_conclude]
  simp only [decide_eq_true_eq]

/-- What is entered into the books of a desk, one thing after another, with the cycles that
end. -/
inductive Course : Watch → List Ending → Watch → Prop where
  | done (w : Watch) : Course w [] w
  | quiet {w w₁ w' : Watch} {log : List Ending} (halike : w.Alike w₁)
      (rest : Course w₁ log w') : Course w log w'
  /-- A poller that has not stopped starts a cycle. -/
  | launch {w w' : Watch} {log : List Ending} {n : Nat} (hn : n < w.pollers.length)
      (hrunning : (w.poller n).ticker ≠ .stopped) (rest : Course (w.launch n) log w') :
      Course w log w'
  /-- A cycle under way ends. -/
  | conclude {w w' : Watch} {log : List Ending} {c : Cycle} (hc : c ∈ w.cycles)
      (result : Except Error Outcome) (rest : Course (w.conclude c result) log w') :
      Course w ({ id := c.id, poller := c.poller, result } :: log) w'

/-- The numbers of the cycles under way are the same. -/
theorem Alike.ids (h : w.Alike w') : w'.cycles.map (·.id) = w.cycles.map (·.id) := by
  simpa [Cycle.tag, Function.comp_def] using congrArg (List.map Prod.fst) h.tags

/-- As many cycles of each poller are under way. -/
theorem Alike.underWay (h : w.Alike w') (n : Nat) : w'.underWay n = w.underWay n := by
  have hcount : ∀ v : Watch, v.underWay n = (v.cycles.map Cycle.tag).countP (·.2 = n) := by
    intro v
    rw [List.countP_map]
    rfl
  rw [hcount, hcount, h.tags]

/-- What is not concerned with the books is not entered. -/
theorem Alike.course (h : w.Alike w') : Course w [] w' :=
  .quiet h (.done w')

/-- Entries follow on others. -/
theorem Course.trans {w₁ w₂ w₃ : Watch} {log more : List Ending} (h : Course w₁ log w₂)
    (h' : Course w₂ more w₃) : Course w₁ (log ++ more) w₃ := by
  induction h with
  | done w => exact h'
  | quiet halike rest ih => exact .quiet halike (ih h')
  | launch hn hrunning rest ih => exact .launch hn hrunning (ih h')
  | conclude hc result rest ih => exact .conclude hc result (ih h')

/-- What happens twice and is not entered once is not entered. -/
theorem Alike.trans {w₁ w₂ w₃ : Watch} (h : w₁.Alike w₂) (h' : w₂.Alike w₃) : w₁.Alike w₃ where
  tags := h'.tags.trans h.tags
  spawned := h'.spawned.trans h.spawned
  stats n := (h'.stats n).trans (h.stats n)
  kept n := (h'.kept n).trans (h.kept n)
  stopped n hn := h'.stopped n (h.stopped n hn)

/-- What others do at the desk is not entered. -/
theorem Alike.of_outside (w : Watch) (desk : Desk) (agenda : Agenda Task) :
    w.Alike { w with desk, agenda } where
  tags := rfl
  spawned := rfl
  stats _ := rfl
  kept _ := rfl
  stopped _ h := h

/-- A poller that counts and keeps what it did, and stays stopped if it was. -/
theorem Alike.of_putPoller {n : Nat} {p : Poller} (hstats : p.stats = (w.poller n).stats)
    (hkept : p.kept = (w.poller n).kept)
    (hstopped : (w.poller n).ticker = .stopped → p.ticker = .stopped) :
    w.Alike (w.putPoller n p) := by
  have hpoller := fun m => w.poller_putPoller_cases n m p
  constructor
  · rfl
  · rfl
  all_goals
    intro m
    rcases hpoller m with heq | ⟨rfl, heq⟩
    · simp [heq]
    · rw [heq]
      assumption

/-- Starting a poller is not entered: it has done nothing yet. -/
theorem Alike.of_addPoller (w : Watch) (period : Nat) : w.Alike (w.addPoller period).1 := by
  have hpoller : ∀ m, (w.addPoller period).1.poller m = w.poller m ∨
      w.poller m = { period := 0 } ∧ (w.addPoller period).1.poller m = { period } := by
    intro m
    rcases Nat.lt_trichotomy m w.pollers.length with hlt | rfl | hgt
    · left
      simp [poller, addPoller, wake, List.getElem?_append_left hlt]
    · right
      refine ⟨poller_of_length_le (Nat.le_refl _), ?_⟩
      simp [poller, addPoller, wake]
    · left
      have hle : (w.addPoller period).1.pollers.length ≤ m := by
        simp only [addPoller, wake, List.length_append, List.length_singleton]
        omega
      rw [poller_of_length_le hle, poller_of_length_le (Nat.le_of_lt hgt)]
  constructor
  · rfl
  · rfl
  all_goals
    intro m
    rcases hpoller m with heq | ⟨hdefault, heq⟩
    · simp [heq]
    · simp [heq, hdefault]

/-- Telling a poller to stop is not entered. -/
theorem Alike.of_signal (w : Watch) (n : Nat) : w.Alike (w.signal n) := by
  unfold signal
  split
  · exact .of_outside w w.desk w.agenda
  · have hput : w.Alike (w.putPoller n (w.poller n).signal) := .of_putPoller rfl rfl id
    exact hput.trans (.of_outside _ _ _)

/-- Ticks of a poller start cycles. -/
theorem course_spawn {n k : Nat} (hn : n < w.pollers.length)
    (hrunning : k ≠ 0 → (w.poller n).ticker ≠ .stopped) : Course w [] (w.spawn n k) := by
  induction k generalizing w with
  | zero => exact .done w
  | succ k ih =>
      refine .launch hn (hrunning (Nat.succ_ne_zero k)) (ih ?_ fun _ => ?_)
      · simpa [Watch.launch, putPoller, wake] using hn
      · rw [poller_launch hn]
        exact hrunning (Nat.succ_ne_zero k)

/-- A ticker that runs starts cycles. -/
theorem course_runTicker (w : Watch) (now n : Nat) : Course w [] (w.runTicker now n) := by
  unfold runTicker
  cases hget : w.pollers[n]? with
  | none => exact .done w
  | some p =>
      have hn : n < w.pollers.length := (List.getElem?_eq_some_iff.1 hget).1
      have hp : w.poller n = p := by
        simp [poller, hget]
      obtain ⟨hstats, hkept, hstopped, hrunning⟩ := p.tick_spec now
      have hput : w.Alike (w.putPoller n (p.tick now).1) := by
        apply Alike.of_putPoller
        · rw [hp, hstats]
        · rw [hp, hkept]
        · intro h
          rw [hp] at h
          rw [hstopped h]
          exact h
      have hspawn : Course (w.putPoller n (p.tick now).1) []
          ((w.putPoller n (p.tick now).1).spawn n (p.tick now).2) := by
        apply course_spawn
        · simpa [putPoller] using hn
        · rw [poller_putPoller hn]
          exact hrunning
      exact .quiet hput (hspawn.trans (Alike.of_outside _ _ _).course)

/-- Waking a cycle is not entered. -/
theorem Alike.of_wakeGranted (w : Watch) : w.Alike w.wakeGranted := by
  unfold wakeGranted
  repeat' split
  all_goals exact .of_outside w w.desk _

/-- A cycle that runs ends or goes on waiting. -/
theorem course_runCycle (w : Watch) (now : Nat) {c : Cycle} (hc : c ∈ w.cycles) :
    Course w
      (match (c.go w.desk now).2 with
        | .ended result => [{ id := c.id, poller := c.poller, result }]
        | .waiting _ => [])
      (w.runCycle now c).wakeGranted := by
  unfold runCycle
  simp only
  cases hgo : (c.go w.desk now).2 with
  | ended result =>
      simp only
      have hquiet := Alike.of_outside (w.conclude c result) (c.go w.desk now).1
        (w.agenda.clearAlarm (.cycle c.id))
      exact .conclude hc result (hquiet.trans (.of_wakeGranted _)).course
  | waiting errand =>
      simp only
      refine Alike.course (Alike.trans ?_ (.of_wakeGranted _))
      constructor
      · rw [List.map_map]
        apply List.map_congr_left
        intro d _
        simp only [Function.comp_apply]
        split <;> rfl
      · rfl
      all_goals
        intro n
        first | rfl | exact id

/-- Whatever happens is entered, with the cycle that ends in it if one does. -/
theorem course_deed (w : Watch) (d : Deed) : Course w (w.ending? d).toList (w.deed d) := by
  cases d with
  | outside desk agenda => exact (Alike.of_outside w desk agenda).course
  | addPoller period => exact (Alike.of_addPoller w period).course
  | signal n => exact (Alike.of_signal w n).course
  | task now t =>
      cases t with
      | ticker n => exact course_runTicker w now n
      | cycle id =>
          simp only [deed, runTask, ending?]
          cases hcycle : w.cycle? id with
          | none => exact .done w
          | some c =>
              have hc : c ∈ w.cycles := List.mem_of_find?_eq_some hcycle
              have hid : c.id = id := by
                simpa using List.find?_some hcycle
              have hrun := course_runCycle w now hc
              simp only [Option.bind_some]
              cases hgo : (c.go w.desk now).2 with
              | waiting errand =>
                  rw [hgo] at hrun
                  exact hrun
              | ended result =>
                  rw [hgo] at hrun
                  rw [← hid]
                  exact hrun
  | tick n =>
      simp only [deed, ending?]
      split
      · rename_i hn
        exact .launch hn.1 hn.2 (.done _)
      · exact .done w

/-- A run is entered, with the cycles that end in it. -/
theorem course_deeds (w : Watch) (ds : List Deed) : Course w (w.endings ds) (w.deeds ds) := by
  induction ds generalizing w with
  | nil => exact .done w
  | cons d ds ih => exact (course_deed w d).trans (ih (w.deed d))

/-! ## Books -/

/-- The books of a desk are right: every cycle that was started is under way or has ended,
and no cycle is both or twice so; the count of every poller adds up and agrees with the
results of those that have ended; and of the cycles under way every poller keeps its own. -/
structure Ledger (w : Watch) (log : List Ending) : Prop where
  once : (log.map (·.id) ++ w.cycles.map (·.id)).Perm (List.range w.spawned)
  balance : ∀ n, (w.poller n).stats.started = (w.poller n).stats.ended + w.underWay n
  counted : ∀ n v, (w.poller n).stats.count v = tally log n v
  kept : ∀ c ∈ w.cycles, ∀ n, c.id ∈ (w.poller n).kept ↔ c.poller = n
  kept_lt : ∀ n, ∀ id ∈ (w.poller n).kept, id < w.spawned

namespace Ledger

variable {log : List Ending}

/-- A desk without pollers has nothing in its books. -/
theorem ofDesk (desk : Desk) : Ledger { desk } [] where
  once := .nil
  balance n := rfl
  counted n v := by
    cases v <;> rfl
  kept c hc := absurd hc List.not_mem_nil
  kept_lt n id hid := absurd hid List.not_mem_nil

/-- A cycle under way has been started. -/
theorem lt_spawned (h : w.Ledger log) {c : Cycle} (hc : c ∈ w.cycles) : c.id < w.spawned := by
  rw [← List.mem_range, ← h.once.mem_iff]
  exact List.mem_append_right _ (List.mem_map_of_mem hc)

/-- The poller of a cycle under way is there. -/
theorem lt_length (h : w.Ledger log) {c : Cycle} (hc : c ∈ w.cycles) :
    c.poller < w.pollers.length :=
  lt_length_of_mem_kept ((h.kept c hc c.poller).2 rfl)

/-- What is not entered leaves the books right. -/
theorem quiet (h : w.Ledger log) (halike : w.Alike w') : w'.Ledger log where
  once := by
    rw [halike.ids, halike.spawned]
    exact h.once
  balance n := by
    rw [halike.stats, halike.underWay]
    exact h.balance n
  counted n v := by
    rw [halike.stats]
    exact h.counted n v
  kept c hc n := by
    have htag : c.tag ∈ w.cycles.map Cycle.tag := halike.tags ▸ List.mem_map_of_mem hc
    obtain ⟨d, hd, hdc⟩ := List.mem_map.1 htag
    obtain ⟨hid, hpoller⟩ := Prod.mk.inj hdc
    rw [halike.kept, ← hid, ← hpoller]
    exact h.kept d hd n
  kept_lt n := by
    rw [halike.kept, halike.spawned]
    exact h.kept_lt n

/-- A poller starts a cycle. -/
theorem launch (h : w.Ledger log) {n : Nat} (hn : n < w.pollers.length) :
    (w.launch n).Ledger log := by
  constructor
  case once =>
    change (_ ++ (w.launch n).cycles.map _).Perm (List.range (w.spawned + 1))
    rw [cycles_launch, List.map_append, ← List.append_assoc, List.range_succ]
    exact h.once.append_right [w.spawned]
  case balance =>
    intro m
    have hbalance := h.balance m
    rw [underWay_launch]
    by_cases hm : m = n
    · subst hm
      have hended : ((w.launch m).poller m).stats.ended = (w.poller m).stats.ended := by
        rw [poller_launch hn]
        rfl
      have hstarted : ((w.launch m).poller m).stats.started = (w.poller m).stats.started + 1 := by
        rw [poller_launch hn]
        rfl
      rw [if_pos rfl]
      omega
    · rw [poller_launch_ne hm, if_neg (Ne.symm hm)]
      exact hbalance
  case counted =>
    intro m v
    rw [← h.counted m v]
    by_cases hm : m = n
    · subst hm
      rw [poller_launch hn]
      cases v <;> rfl
    · rw [poller_launch_ne hm]
  case kept =>
    intro c hc m
    rw [cycles_launch, List.mem_append, List.mem_singleton] at hc
    rcases hc with hc | rfl
    · by_cases hm : m = n
      · subst hm
        -- The poller strikes those that it kept and that have ended, so not this one.
        have hunderWay : w.isUnderWay c.id = true := List.any_eq_true.2 ⟨c, hc, by simp⟩
        have hne : c.id ≠ w.spawned := Nat.ne_of_lt (h.lt_spawned hc)
        rw [poller_launch hn, ← h.kept c hc m]
        simp [Poller.launch, hunderWay, hne]
      · rw [poller_launch_ne hm]
        exact h.kept c hc m
    · by_cases hm : m = n
      · subst hm
        rw [poller_launch hn]
        simp [Poller.launch]
      · rw [poller_launch_ne hm]
        have hnew : w.spawned ∉ (w.poller m).kept := fun hid => Nat.lt_irrefl _ (h.kept_lt m _ hid)
        simp [hnew, Ne.symm hm]
  case kept_lt =>
    intro m id hid
    change id < w.spawned + 1
    by_cases hm : m = n
    · subst hm
      rw [poller_launch hn] at hid
      simp only [Poller.launch, List.mem_append, List.mem_filter, List.mem_singleton] at hid
      rcases hid with ⟨hid, -⟩ | rfl
      · exact Nat.lt_succ_of_lt (h.kept_lt m id hid)
      · exact Nat.lt_succ_self _
    · rw [poller_launch_ne hm] at hid
      exact Nat.lt_succ_of_lt (h.kept_lt m id hid)

/-- A cycle ends and is counted. -/
theorem conclude (h : w.Ledger log) {c : Cycle} (hc : c ∈ w.cycles)
    (result : Except Error Outcome) :
    (w.conclude c result).Ledger (log ++ [{ id := c.id, poller := c.poller, result }]) := by
  have hnodup : (w.cycles.map (·.id)).Nodup :=
    (List.nodup_append.1 (h.once.nodup_iff.2 List.nodup_range)).2.1
  have hself := poller_conclude (h.lt_length hc) result
  have hkept : ∀ m, ((w.conclude c result).poller m).kept = (w.poller m).kept := by
    intro m
    by_cases hm : m = c.poller
    · subst hm
      rw [hself]
      rfl
    · rw [poller_conclude_ne hm]
  constructor
  case once =>
    have hids := ((perm_cons_filter hnodup hc).map (·.id)).append_left (log.map (·.id))
    change (_ ++ (w.conclude c result).cycles.map _).Perm (List.range w.spawned)
    rw [cycles_conclude, List.map_append, List.append_assoc]
    exact hids.symm.trans h.once
  case balance =>
    intro m
    have hbalance := h.balance m
    rw [underWay_conclude hnodup hc result m] at hbalance
    by_cases hm : m = c.poller
    · subst hm
      rw [if_pos rfl] at hbalance
      rw [hself, Poller.record, Poller.Stats.started_record, Poller.Stats.ended_record]
      omega
    · rw [if_neg (Ne.symm hm)] at hbalance
      rw [poller_conclude_ne hm]
      exact hbalance
  case counted =>
    intro m v
    have hcounted := h.counted m v
    simp only [tally, List.countP_append, List.countP_singleton] at hcounted ⊢
    by_cases hm : m = c.poller
    · subst hm
      rw [hself, Poller.record, Poller.Stats.count_record, hcounted]
      simp
    · rw [poller_conclude_ne hm, hcounted]
      simp [Ne.symm hm]
  case kept =>
    intro d hd m
    rw [cycles_conclude] at hd
    rw [hkept]
    exact h.kept d (List.mem_filter.1 hd).1 m
  case kept_lt =>
    intro m
    rw [hkept]
    exact h.kept_lt m

/-- Whatever happens, the books stay right. -/
theorem course {more : List Ending} (h : w.Ledger log) (hcourse : Course w more w') :
    w'.Ledger (log ++ more) := by
  induction hcourse generalizing log with
  | done w =>
      rw [List.append_nil]
      exact h
  | quiet halike rest ih => exact ih (h.quiet halike)
  | launch hn hrunning rest ih => exact ih (h.launch hn)
  | conclude hc result rest ih =>
      have hnext := ih (h.conclude hc result)
      rw [List.append_assoc] at hnext
      exact hnext

end Ledger

/-! ## Final counts -/

/-- The count of a poller that has stopped and has no cycle under way. -/
structure Closed (w : Watch) (n : Nat) (s : Poller.Stats) : Prop where
  stopped : (w.poller n).ticker = .stopped
  none_underWay : w.underWay n = 0
  stats : (w.poller n).stats = s

namespace Closed

variable {n : Nat} {s : Poller.Stats}

/-- No cycle under way is of that poller. -/
theorem poller_ne (h : w.Closed n s) {c : Cycle} (hc : c ∈ w.cycles) : c.poller ≠ n := by
  have hnone := List.countP_eq_zero.1 h.none_underWay c hc
  simpa using hnone

/-- Whatever happens, a poller that is over stays so, and its count stays what it is. -/
theorem course {log : List Ending} (h : w.Closed n s) (hcourse : Course w log w') :
    w'.Closed n s := by
  induction hcourse with
  | done w => exact h
  | quiet halike rest ih =>
      apply ih
      constructor
      · exact halike.stopped n h.stopped
      · rw [halike.underWay]
        exact h.none_underWay
      · rw [halike.stats]
        exact h.stats
  | @launch w _ _ m hm hrunning rest ih =>
      -- Only a poller that has not stopped starts a cycle.
      have hne : m ≠ n := fun heq => hrunning (heq ▸ h.stopped)
      have hpoller := poller_launch_ne (w := w) hne.symm
      apply ih
      constructor
      · rw [hpoller]
        exact h.stopped
      · rw [underWay_launch, if_neg hne]
        exact h.none_underWay
      · rw [hpoller]
        exact h.stats
  | @conclude w _ _ c hc result rest ih =>
      have hne : n ≠ c.poller := (h.poller_ne hc).symm
      have hpoller := poller_conclude_ne (w := w) hne result
      apply ih
      constructor
      · rw [hpoller]
        exact h.stopped
      · apply List.countP_eq_zero.2
        intro d hd
        have hold : d ∈ w.cycles := (List.mem_filter.1 hd).1
        simpa using h.poller_ne hold
      · rw [hpoller]
        exact h.stats

end Closed

/-- A poller is over when it has stopped and none of its cycles is under way, for of those
under way it keeps its own. -/
theorem Ledger.isOver_iff {log : List Ending} (h : w.Ledger log) (n : Nat) :
    w.isOver n = true ↔ (w.poller n).ticker = .stopped ∧ w.underWay n = 0 := by
  rw [isOver, Bool.and_eq_true, beq_iff_eq, Bool.not_eq_true', List.any_eq_false]
  apply and_congr_right
  intro hstopped
  rw [underWay, List.countP_eq_zero]
  constructor
  · intro hnone c hc hpoller
    have hkept := (h.kept c hc n).2 (of_decide_eq_true hpoller)
    exact hnone c.id hkept (List.any_eq_true.2 ⟨c, hc, by simp⟩)
  · intro hnone id hid hunderWay
    obtain ⟨c, hc, heq⟩ := List.any_eq_true.1 hunderWay
    obtain rfl : c.id = id := by simpa using heq
    exact hnone c hc (decide_eq_true ((h.kept c hc n).1 hid))

/-- The count of a poller that is over is closed. -/
theorem Ledger.closed {log : List Ending} (h : w.Ledger log) {n : Nat} (hover : w.isOver n = true) :
    w.Closed n (w.poller n).stats where
  stopped := ((h.isOver_iff n).1 hover).1
  none_underWay := ((h.isOver_iff n).1 hover).2
  stats := rfl

/-! ## Accounts -/

/-- In a run the count of every poller adds up, agrees with the results of the cycles that
have ended, and is final when the poller is over. -/
structure Accounts (w : Watch) (ds : List Deed) : Prop where
  /-- Of the cycles that were started each is under way or has ended, once. -/
  once : ((w.endings ds).map (·.id) ++ (w.deeds ds).cycles.map (·.id)).Perm
    (List.range (w.deeds ds).spawned)
  balance : ∀ n,
    let s := ((w.deeds ds).poller n).stats
    s.started = s.succeeded + s.failed + s.timedOut + (w.deeds ds).underWay n
  counted : ∀ n v, ((w.deeds ds).poller n).stats.count v = tally (w.endings ds) n v
  /-- A poller is over as soon as it has stopped and none of its cycles is under way, -/
  over_iff : ∀ n, (w.deeds ds).isOver n = true ↔
    ((w.deeds ds).poller n).ticker = .stopped ∧ (w.deeds ds).underWay n = 0
  /-- and its count stays what it is then. -/
  final : ∀ n, (w.deeds ds).isOver n = true →
    ∀ more, ((w.deeds ds).deeds more).Closed n ((w.deeds ds).poller n).stats

/-- The books of a desk that began without pollers are right. -/
theorem ledger_deeds (desk : Desk) (ds : List Deed) :
    (({ desk } : Watch).deeds ds).Ledger (({ desk } : Watch).endings ds) := by
  have hcourse := (Ledger.ofDesk desk).course (course_deeds { desk } ds)
  rw [List.nil_append] at hcourse
  exact hcourse

/-- The count of every poller adds up in every run, whichever task runs when and whatever is
done at the desk. -/
theorem accounts_deeds (desk : Desk) (ds : List Deed) : ({ desk } : Watch).Accounts ds := by
  have hledger := ledger_deeds desk ds
  constructor
  · exact hledger.once
  · exact hledger.balance
  · exact hledger.counted
  · exact hledger.isOver_iff
  · intro n hover more
    exact (hledger.closed hover).course (course_deeds _ more)

/-- A cycle that the store fails, one that waits for the gate in vain, and one that still has
time when the poller is told to stop. -/
example :
    let b : Board :=
      { gate := { name := "gate", options := { timeoutMs := 10 } }, view := { eventId := some 1 } }
    let w : Watch :=
      { desk := { board := b, backend := .store { failNext := some "down" }, latency := 15 } }
    let ds : List Deed :=
      [.addPoller 5, .task 0 (.ticker 0), .task 0 (.cycle 0), .task 5 (.ticker 0),
        .task 5 (.cycle 1), .task 10 (.ticker 0), .task 10 (.cycle 2), .task 15 (.cycle 1),
        .task 15 (.cycle 0), .task 15 (.cycle 2), .signal 0, .task 15 (.ticker 0)]
    ((w.deeds ds).poller 0).stats = { started := 3, failed := 1, timedOut := 1 } ∧
      (w.deeds ds).underWay 0 = 1 ∧ (w.deeds ds).isOver 0 = false ∧
      (w.deeds (ds ++ [.task 30 (.cycle 2)])).isOver 0 = true := by
  decide +kernel

/-! ## Later desks -/

/-- A desk as it is some time later. -/
def Later (w w' : Watch) : Prop :=
  ∃ ds, w.deeds ds = w'

namespace Later

/-- Nothing has happened. -/
theorem refl (w : Watch) : w.Later w :=
  ⟨[], rfl⟩

/-- Later than later. -/
theorem trans {w₁ w₂ w₃ : Watch} (h : w₁.Later w₂) (h' : w₂.Later w₃) : w₁.Later w₃ := by
  obtain ⟨ds, rfl⟩ := h
  obtain ⟨more, rfl⟩ := h'
  exact ⟨ds ++ more, List.foldl_append⟩

/-- One thing has happened. -/
theorem deed (w : Watch) (d : Deed) : w.Later (w.deed d) :=
  ⟨[d], rfl⟩

/-- A cycle that was granted the gate has been woken. -/
theorem wakeGranted (w : Watch) : w.Later w.wakeGranted := by
  have hagenda : w.wakeGranted = w.deed (.outside w.desk w.wakeGranted.agenda) := by
    unfold Watch.wakeGranted
    repeat' split
    all_goals rfl
  rw [hagenda]
  exact deed w _

/-- Those who are awake have run. -/
theorem runTurns (now turns : Nat) (w : Watch) : w.Later (Watch.runTurns now turns w) := by
  induction turns generalizing w with
  | zero => exact refl w
  | succ turns ih =>
      rw [Watch.runTurns]
      cases w.agenda.woken with
      | nil => exact refl w
      | cons t rest =>
          have hpop := deed w (.outside w.desk { w.agenda with woken := rest })
          exact (hpop.trans (deed _ (.task now t))).trans (ih _)

/-- The pollers and their cycles have gone on as far as they can. -/
theorem run (w : Watch) (now : Nat) : w.Later (w.run now) :=
  (deed w (.outside w.desk (w.agenda.ring now))).trans (runTurns now _ _)

end Later

end Watch
end AwardsDesk
