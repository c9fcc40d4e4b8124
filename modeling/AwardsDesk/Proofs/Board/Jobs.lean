import AwardsDesk.Proofs.Board.Alike
import AwardsDesk.Proofs.Board.Run
import AwardsDesk.Proofs.Gate.Turns

/-!
# Jobs at the gate

The jobs of a board and its gate belong together: each job is known at the gate by a
number of its own, and the ticket of a job that waits for the backend is locked.  So there
is one such job at most, and a job that got the gate never fails to lock or to unlock its
ticket.

Main definitions:

- Structure {lit}`Board.Fits`: the invariant of a board's jobs and its gate.
- Functions {lit}`Board.enroll`, {lit}`Board.call` and {lit}`Board.dismiss`: what becomes of a
  job, with what happens at the gate.

Main results:

- Theorem {lit}`Board.Fits.ticket_eq`: the job that waits for the backend owns the slot.
- Theorems {lit}`Board.leave_eq` and {lit}`Board.enter_eq`: the gate does not fail a job
  that holds it.
- Theorems {lit}`Board.Fits.outside`, {lit}`Board.Fits.enroll`, {lit}`Board.Fits.call` and
  {lit}`Board.Fits.dismiss`: what happens to jobs keeps the invariant.
-/

namespace AwardsDesk
namespace Board

variable {b : Board} {j k : Job}

/-! ## The invariant -/

/-- The jobs of a board fit its gate. -/
structure Fits (b : Board) : Prop where
  gate : b.gate.Coherent
  /-- Jobs started later have higher numbers. -/
  sorted : b.jobs.Pairwise fun j k => j.id < k.id ∧ j.number < k.number
  lt_started : ∀ j ∈ b.jobs, j.id < b.started
  le_issued : ∀ j ∈ b.jobs, j.number ≤ b.gate.slot.issued
  /-- A job that waits for the backend holds the gate. -/
  locked : ∀ j ∈ b.jobs, ∀ t w, j.stage = .calling t w → b.gate.phase t = .locked

/-- A board without jobs fits a new gate. -/
theorem fits_initial (name : String) (options : Gate.Options) (v : View) :
    Fits { gate := { name, options }, view := v } where
  gate := Gate.coherent_initial name options
  sorted := List.Pairwise.nil
  lt_started := by simp
  le_issued := by simp
  locked := by simp

/-- The job of a number is one of the jobs. -/
theorem mem_of_job? {id : Nat} (h : b.job? id = some j) : j ∈ b.jobs ∧ j.id = id := by
  refine ⟨List.mem_of_find?_eq_some h, ?_⟩
  simpa using List.find?_some h

namespace Fits

/-- No two jobs have the same number. -/
theorem nodup (h : b.Fits) : (b.jobs.map Job.id).Nodup :=
  List.pairwise_map.2 (h.sorted.imp fun hlt => Nat.ne_of_lt hlt.1)

/-- Different jobs are known at the gate by different numbers. -/
theorem number_ne (h : b.Fits) (hj : j ∈ b.jobs) (hk : k ∈ b.jobs) (hne : j.id ≠ k.id) :
    j.number ≠ k.number := by
  have hnumbers : (b.jobs.map Job.number).Nodup :=
    List.pairwise_map.2 (h.sorted.imp fun hlt => Nat.ne_of_lt hlt.2)
  intro heq
  exact hne (congrArg Job.id (List.inj_on_of_nodup_map hnumbers hj hk heq))

/-- The jobs that stay when one is removed. -/
theorem mem_removeJob (h : b.Fits) : k ∈ (b.removeJob j.id).jobs ↔ k ∈ b.jobs ∧ k.id ≠ j.id := by
  rw [removeJob, eraseP_key_eq_filter Job.id h.nodup]
  simp

/-- The job that waits for the backend owns the slot. -/
theorem ticket_eq (h : b.Fits) (hj : j ∈ b.jobs) {t : Nat} {w : Await}
    (hstage : j.stage = .calling t w) : b.gate.slot.grant = some t :=
  h.gate.grant_of_locked (h.locked j hj t w hstage)

/-- While a job owns the slot no other job waits for the backend. -/
theorem id_eq_of_calling (h : b.Fits) (hj : j ∈ b.jobs) (hgrant : b.gate.slot.grant = some j.number)
    (hk : k ∈ b.jobs) {t : Nat} {w : Await} (hstage : k.stage = .calling t w) : k.id = j.id := by
  by_contra hne
  have hticket := h.ticket_eq hk hstage
  rw [hgrant, Option.some.injEq] at hticket
  refine h.number_ne hk hj hne ?_
  rw [hticket, Job.number, hstage]
  rfl

end Fits

/-! ## What becomes of a job -/

/-- A job that is about to ask for the gate. -/
def newJob (b : Board) (a : Action) : Job where
  id := b.started
  action := a
  stage := .queued b.gate.slot.nextId

/-- A new job has asked for the gate. -/
def enroll (b : Board) (now : Nat) (a : Action) : Board :=
  { b with
    gate := (b.gate.step (.acquire now)).1
    jobs := b.jobs ++ [b.newJob a]
    started := b.started + 1 }

/-- A job has locked its ticket and made a request. -/
def call (b : Board) (j : Job) (w : Await) : Board :=
  { b.setStage j.id (.calling j.number w) with gate := b.gate.run [.lock j.number] }

/-- A job is over after some events at the gate, and has left a view. -/
def dismiss (b : Board) (j : Job) (es : List Gate.Event) (v : View) : Board :=
  { b.removeJob j.id with gate := b.gate.run es, view := v }

/-! ## Holding the gate -/

/-- A job is over without trouble if it had the gate or leaves nothing open. -/
theorem close_eq {result : Except Error Outcome}
    (hquiet : ∀ e, result = .error (.gate e) → j.action.afterGateError b.view = b.view) :
    b.close j result = (b.removeJob j.id, result) := by
  unfold close
  split
  · rename_i e
    have hview : j.action.afterGateError (b.removeJob j.id).view = b.view := hquiet e rfl
    simp only [hview]
    rfl
  · rfl

/-- A job that holds the gate gives it back. -/
theorem leave_eq {t : Nat} (hphase : b.gate.phase t = .locked) {result : Except Error Outcome}
    (hquiet : ∀ e, result = .error (.gate e) → j.action.afterGateError b.view = b.view) :
    b.leave j t result = (b.dismiss j [.unlock t, .drop t] b.view, result) := by
  rw [leave, (Gate.unlock_step hphase).1]
  exact close_eq hquiet

/-- A job that has been granted the gate locks it, and gives it back at once if it asks the
backend nothing. -/
theorem enter_eq (h : b.gate.Coherent) (hphase : b.gate.phase j.number = .granted) :
    b.enter j j.number =
      match j.action.begin b.view with
      | .ended view result =>
        (b.dismiss j [.lock j.number, .unlock j.number, .drop j.number] view, .ended result)
      | .asking w => (b.call j w, .asking j.id w.request) := by
  rcases h.lock_step hphase with ⟨hlock, -, hlocked⟩
  rw [enter, hlock]
  cases hbegin : j.action.begin b.view with
  | asking w =>
      simp only [hbegin]
      rfl
  | ended view result =>
      have hquiet : ∀ e, result = .error (.gate e) → j.action.afterGateError view = view := by
        intro e he
        rcases Action.begin_ended_cases hbegin with ⟨event, -, hresult⟩ | ⟨-, hresult⟩
        · simp [he] at hresult
        · exact absurd he (hresult e)
      have hleave := leave_eq (b := { b with gate := (b.gate.step (.lock j.number)).1, view })
        hlocked hquiet
      simp only [hbegin, hleave]
      rfl

/-! ## What happens to jobs -/

namespace Fits

/-- Others at the gate leave the jobs alone. -/
theorem outside (h : b.Fits) {e : Gate.Event} (hours : ∀ j ∈ b.jobs, j.number ≠ b.gate.subject e) :
    Fits { b with gate := (b.gate.step e).1 } where
  gate := h.gate.step e
  sorted := h.sorted
  lt_started := h.lt_started
  le_issued j hj := by
    have hold := h.le_issued j hj
    have hstep := Gate.issued_le_step b.gate e
    exact Nat.le_trans hold hstep
  locked j hj t w hstage := by
    have hne : t ≠ b.gate.subject e := by
      simpa [Job.number, Stage.number, hstage] using hours j hj
    exact (Gate.phase_step e hne).trans (h.locked j hj t w hstage)

/-- A new job fits when it has asked for the gate. -/
theorem enroll (h : b.Fits) (now : Nat) (a : Action) : (b.enroll now a).Fits where
  gate := h.gate.step (.acquire now)
  sorted := by
    refine List.pairwise_append.2 ⟨h.sorted, List.pairwise_singleton _ _, fun j hj => ?_⟩
    refine List.forall_mem_singleton.2 ⟨h.lt_started j hj, ?_⟩
    exact Nat.lt_succ_of_le (h.le_issued j hj)
  lt_started := by
    refine List.forall_mem_append.2 ⟨fun j hj => ?_, List.forall_mem_singleton.2 ?_⟩
    · exact Nat.lt_succ_of_lt (h.lt_started j hj)
    · exact Nat.lt_succ_self b.started
  le_issued := by
    refine List.forall_mem_append.2 ⟨fun j hj => ?_, List.forall_mem_singleton.2 ?_⟩
    · have hold := h.le_issued j hj
      have hstep := Gate.issued_le_step b.gate (.acquire now)
      exact Nat.le_trans hold hstep
    · have hissued := (Gate.eq_nextId_of_joined (Gate.joined_acquire b.gate now)).2.1
      exact Nat.le_of_eq hissued.symm
  locked := by
    refine List.forall_mem_append.2 ⟨fun j hj t w hstage => ?_, List.forall_mem_singleton.2 ?_⟩
    · have hle : t ≤ b.gate.slot.issued := by
        simpa [Job.number, Stage.number, hstage] using h.le_issued j hj
      have hne : t ≠ b.gate.slot.nextId := Nat.ne_of_lt (Nat.lt_succ_of_le hle)
      exact (Gate.phase_step (.acquire now) hne).trans (h.locked j hj t w hstage)
    · intro t w hstage
      simp [newJob] at hstage

/-- The other jobs fit when one is over and all that happens at the gate is about it. -/
theorem dismiss (h : b.Fits) (hj : j ∈ b.jobs) {es : List Gate.Event}
    (hes : ∀ e ∈ es, e.About j.number) (v : View) : (b.dismiss j es v).Fits where
  gate := h.gate.run es
  sorted := h.sorted.sublist List.eraseP_sublist
  lt_started k hk := h.lt_started k (List.mem_of_mem_eraseP hk)
  le_issued k hk := by
    have hold := h.le_issued k (List.mem_of_mem_eraseP hk)
    have hrun := Gate.issued_le_run b.gate es
    exact Nat.le_trans hold hrun
  locked k hk t w hstage := by
    rcases h.mem_removeJob.1 hk with ⟨hmem, hne⟩
    have hnumber : t ≠ j.number := by
      simpa [Job.number, Stage.number, hstage] using h.number_ne hmem hj hne
    exact (Gate.phase_run hes hnumber).trans (h.locked k hmem t w hstage)

/-- When a job makes a request the other jobs stay as they are. -/
theorem mem_call (h : b.Fits) (hj : j ∈ b.jobs) {w : Await} (hk : k ∈ (b.call j w).jobs) :
    (k ∈ b.jobs ∧ k.id ≠ j.id) ∨ k = { j with stage := .calling j.number w } := by
  rcases List.mem_map.1 hk with ⟨k, hmem, rfl⟩
  by_cases hid : k.id = j.id
  · have heq : k = j := List.inj_on_of_nodup_map h.nodup hmem hj hid
    rw [if_pos hid, heq]
    exact Or.inr rfl
  · rw [if_neg hid]
    exact Or.inl ⟨hmem, hid⟩

/-- No number changes when a job makes a request. -/
theorem map_call (h : b.Fits) (hj : j ∈ b.jobs) (w : Await) :
    (b.call j w).jobs.map (fun k => (k.id, k.number)) =
      b.jobs.map fun k => (k.id, k.number) := by
  refine List.map_map.trans (List.map_congr_left fun k hk => ?_)
  by_cases hid : k.id = j.id
  · have heq : k = j := List.inj_on_of_nodup_map h.nodup hk hj hid
    simp [heq, Job.number, Stage.number]
  · simp [hid]

/-- The jobs fit when one of them has locked its ticket. -/
theorem call (h : b.Fits) (hj : j ∈ b.jobs) (hphase : b.gate.phase j.number = .granted)
    (w : Await) : (b.call j w).Fits where
  gate := h.gate.run [.lock j.number]
  sorted := by
    have hsorted : (b.jobs.map fun k => (k.id, k.number)).Pairwise
        fun p q => p.1 < q.1 ∧ p.2 < q.2 := List.pairwise_map.2 h.sorted
    rw [← h.map_call hj w] at hsorted
    exact List.pairwise_map.1 hsorted
  lt_started k hk := by
    rcases h.mem_call hj hk with ⟨hmem, -⟩ | rfl
    · exact h.lt_started k hmem
    · exact h.lt_started j hj
  le_issued k hk := by
    have hrun := Gate.issued_le_run b.gate [.lock j.number]
    rcases h.mem_call hj hk with ⟨hmem, -⟩ | rfl
    · exact Nat.le_trans (h.le_issued k hmem) hrun
    · exact Nat.le_trans (h.le_issued j hj) hrun
  locked k hk t w' hstage := by
    rcases h.mem_call hj hk with ⟨hmem, hid⟩ | rfl
    · have hne : t ≠ j.number := by
        simpa [Job.number, Stage.number, hstage] using h.number_ne hmem hj hid
      have habout : ∀ e ∈ [Gate.Event.lock j.number], e.About j.number :=
        List.forall_mem_singleton.2 fun _ => rfl
      exact (Gate.phase_run habout hne).trans (h.locked k hmem t w' hstage)
    · rcases Stage.calling.inj hstage with ⟨rfl, -⟩
      exact (h.gate.lock_step hphase).2.2

end Fits
end Board
end AwardsDesk
