/-!
# Agendas

Tasks that run by themselves wait for a time or for one another.  A task that waits
for a time has an alarm.  Alarms ring in order of their times, and those for the same
time in the order in which they were set.  A task that was woken, by its alarm or
otherwise, runs in the order of waking, and waking it again before it runs adds
nothing.

Main definitions:

- Structure {lit}`Agenda`: the alarms, and the tasks that were woken.
- Functions {lit}`Agenda.wake`, {lit}`Agenda.setAlarm` and {lit}`Agenda.ring`.

Main results:

- Theorem {lit}`Agenda.mem_woken_wake`: who is awake after a waking.
- Theorem {lit}`Agenda.pairwise_due`: alarms ring in order of their times.
-/

namespace AwardsDesk

/-- The time at which a task goes on. -/
structure Alarm (τ : Type) where
  time : Nat
  task : τ
deriving DecidableEq, Repr

/-- The alarms that have not rung, in the order in which they were set, and the tasks
that were woken and have not run yet, in the order in which they will. -/
structure Agenda (τ : Type) where
  alarms : List (Alarm τ) := []
  woken : List τ := []
deriving Repr, Inhabited

namespace Agenda

variable {τ : Type}

/-- The alarms that ring at the given time, in the order in which they do. -/
def due (a : Agenda τ) (now : Nat) : List (Alarm τ) :=
  (a.alarms.filter fun x => decide (x.time ≤ now)).mergeSort fun x y => decide (x.time ≤ y.time)

/-- Alarms ring in order of their times. -/
theorem pairwise_due (a : Agenda τ) (now : Nat) :
    (a.due now).Pairwise fun x y => x.time ≤ y.time := by
  have h : (a.due now).Pairwise fun x y => decide (x.time ≤ y.time) = true :=
    List.pairwise_mergeSort (fun x y z => by simpa using Nat.le_trans)
      (fun x y => by simpa using Nat.le_total x.time y.time) _
  exact h.imp (by simp)

/-- The alarms that ring are those whose times have come. -/
theorem mem_due (a : Agenda τ) (now : Nat) (x : Alarm τ) :
    x ∈ a.due now ↔ x ∈ a.alarms ∧ x.time ≤ now := by
  simp [due, List.mem_mergeSort]

variable [DecidableEq τ]

/-- Wakes a task. -/
def wake (a : Agenda τ) (t : τ) : Agenda τ :=
  if t ∈ a.woken then a else { a with woken := a.woken ++ [t] }

/-- Takes back the alarm of a task. -/
def clearAlarm (a : Agenda τ) (t : τ) : Agenda τ :=
  { a with alarms := a.alarms.filter fun x => decide (x.task ≠ t) }

/-- Sets the alarm of a task, which has no other one then. -/
def setAlarm (a : Agenda τ) (t : τ) (time : Nat) : Agenda τ :=
  { a with alarms := (a.clearAlarm t).alarms ++ [{ time, task := t }] }

/-- Sets the alarm of a task to a time, or takes it back if there is none. -/
def resetAlarm (a : Agenda τ) (t : τ) : Option Nat → Agenda τ
  | some time => a.setAlarm t time
  | none => a.clearAlarm t

/-- The alarms that are due ring and wake their tasks. -/
def ring (a : Agenda τ) (now : Nat) : Agenda τ :=
  (a.due now).foldl (fun b x => b.wake x.task)
    { a with alarms := a.alarms.filter fun x => decide (now < x.time) }

/-! ## Laws -/

/-- After a waking the task is awake, and so are those that were. -/
@[simp]
theorem mem_woken_wake (a : Agenda τ) (t u : τ) :
    u ∈ (a.wake t).woken ↔ u ∈ a.woken ∨ u = t := by
  unfold wake
  split
  · rename_i h
    exact ⟨Or.inl, fun hu => hu.elim id (· ▸ h)⟩
  · simp

/-- Nobody is woken twice. -/
theorem nodup_woken_wake {a : Agenda τ} (h : a.woken.Nodup) (t : τ) :
    (a.wake t).woken.Nodup := by
  unfold wake
  split
  · exact h
  · rename_i ht
    refine List.nodup_append.2 ⟨h, by simp, fun u hu v hv e => ?_⟩
    exact ht (List.mem_singleton.1 hv ▸ e ▸ hu)

end Agenda
end AwardsDesk
