import AwardsDesk.Proofs.Board.Jobs

/-!
# What an event can do

Everything that can happen to a board in one event is listed here once: nothing, others at
the gate, a job that has to wait, one that is over without having done anything, one that
makes its request, and the two ways in which the body of an action ends.  What is shown
about events elsewhere goes through these cases.

Main definitions:

- Structure {lit}`Board.InStep`: a board shows what the bodies that have ended left.
- Inductive types {lit}`Board.Enters` and {lit}`Board.Change`: how a job gets the gate, and
  what an event does.

Main results:

- Theorem {lit}`Board.Enters.inStep`: a job that has just got the gate has its ticket.
- Theorem {lit}`Board.InStep.change`: an event does nothing else.
-/

namespace AwardsDesk
namespace Board

variable {b : Board} {s : View}

/-! ## The invariant -/

/-- A board shows what the bodies that have ended left, and the job that waits for the
backend asks what it would have asked there. -/
structure InStep (b : Board) (s : View) : Prop where
  fits : b.Fits
  follows : b.view.Follows s
  begun : ∀ j ∈ b.jobs, ∀ t w, j.stage = .calling t w → j.action.begin s = .asking w

/-- A board without jobs shows what it shows. -/
theorem inStep_initial (name : String) (options : Gate.Options) (v : View) :
    InStep { gate := { name, options }, view := v } v where
  fits := fits_initial name options v
  follows := .refl v
  begun := by simp

/-- A new board shows what it shows. -/
theorem IsNew.inStep (h : b.IsNew) : b.InStep b.view := by
  rcases h.eq with ⟨name, options, event, rfl⟩
  exact inStep_initial name options _

/-! ## What an event can do -/

/-- A job has just got the gate: it was started, or its turn has come. -/
inductive Enters (b : Board) : Board → Job → Gate.Event → Prop where
  | started (now : Nat) (a : Action)
      (granted : (b.gate.step (.acquire now)).2 = .admitted (.granted b.gate.slot.nextId))
      (early : a.early? b.view = none) :
      Enters b (b.enroll now a) (b.newJob a) (.acquire now)
  | turned (now : Nat) (j : Job) (request : Nat) (mem : j ∈ b.jobs)
      (stage : j.stage = .queued request)
      (granted : (b.gate.step (.resume now request)).2 = .turned .granted) :
      Enters b { b with gate := (b.gate.step (.resume now request)).1 } j (.resume now request)

/-- What an event does to a board, with the reply, what is done at the gate, and the body
that ends. -/
inductive Change (b : Board) : Board → Option Advance → List Gate.Event → Option Body → Prop where
  /-- Nothing happens; an action may be over before it asks for the gate. -/
  | idle (reply : Option Advance) (es : List Gate.Event) (still : b.gate.run es = b.gate)
      (told : ∀ result, reply = some (.ended result) → ∃ a : Action, a.early? b.view = some result)
      (quiet : ∀ id r, reply ≠ some (.asking id r)) :
      Change b b reply es none
  /-- Others use the gate. -/
  | outside (e : Gate.Event) (strange : ∀ j ∈ b.jobs, j.number ≠ b.gate.subject e) :
      Change b { b with gate := (b.gate.step e).1 } none [e] none
  /-- A job is started and has to wait for the gate. -/
  | queued (now : Nat) (a : Action) (early : a.early? b.view = none) :
      Change b (b.enroll now a) (some (.waiting b.started)) [.acquire now] none
  /-- A job is over without having done anything: its wait for the gate was too long, or it
  was given up. -/
  | gone (j : Job) (mem : j ∈ b.jobs) (e : Gate.Event) (about : e.About j.number) (v : View)
      (reply : Option Advance)
      (fate : (v = j.action.afterGateError b.view ∧
          reply = some (.ended (.error (.gate b.gate.timeoutError)))) ∨
        (v = b.view ∧ reply = none)) :
      Change b (b.dismiss j [e] v) reply [e] none
  /-- A job got the gate and makes a request. -/
  | asking {b' : Board} {j : Job} {e : Gate.Event} (enters : b.Enters b' j e) (w : Await)
      (begins : j.action.begin b.view = .asking w) :
      Change b (b'.call j w) (some (.asking j.id w.request)) [e, .lock j.number] none
  /-- A job got the gate and is over without a request. -/
  | done {b' : Board} {j : Job} {e : Gate.Event} (enters : b.Enters b' j e) (v : View)
      (result : Except Error Outcome) (begins : j.action.begin b.view = .ended v result) :
      Change b (b'.dismiss j [.lock j.number, .unlock j.number, .drop j.number] v)
        (some (.ended result)) [e, .lock j.number, .unlock j.number, .drop j.number]
        (some { ticket := j.number, action := j.action, asked := none, result })
  /-- A job hears from the backend and is over. -/
  | answered (j : Job) (mem : j ∈ b.jobs) (w : Await) (stage : j.stage = .calling j.number w)
      (respond : Responder) :
      Change b
        (b.dismiss j [.unlock j.number, .drop j.number]
          (w.finish (respond w.request) b.view).1)
        (some (.ended (w.finish (respond w.request) b.view).2))
        [.unlock j.number, .drop j.number]
        (some { ticket := j.number, action := j.action, asked := some (w, respond),
                result := (w.finish (respond w.request) b.view).2 })

/-- A new job has made no request, so the board stays in step. -/
theorem InStep.enroll (h : b.InStep s) (now : Nat) (a : Action) : (b.enroll now a).InStep s where
  fits := h.fits.enroll now a
  follows := h.follows
  begun := by
    refine List.forall_mem_append.2 ⟨h.begun, List.forall_mem_singleton.2 ?_⟩
    intro t w hstage
    simp [newJob] at hstage

namespace Enters

variable {b' : Board} {j : Job} {e : Gate.Event}

/-- Nothing is shown yet when a job has just got the gate. -/
theorem view_eq (henters : b.Enters b' j e) : b'.view = b.view := by
  cases henters <;> rfl

/-- The gate is as the event left it when a job has just got it. -/
theorem gate_eq (henters : b.Enters b' j e) : b'.gate = (b.gate.step e).1 := by
  cases henters <;> rfl

/-- A job that has just got the gate has made no request yet. -/
theorem stage_eq (henters : b.Enters b' j e) : j.stage = .queued j.number := by
  cases henters with
  | started now a granted early => rfl
  | turned now j request mem stage granted => simp [Job.number, Stage.number, stage]

/-- The other jobs are still there when a job has just got the gate. -/
theorem mem_jobs (henters : b.Enters b' j e) {k : Job} (hk : k ∈ b.jobs) : k ∈ b'.jobs := by
  cases henters with
  | started now a granted early => exact List.mem_append_left _ hk
  | turned now j request mem stage granted => exact hk

/-- A job that has just got the gate has a granted ticket, and all else is as before. -/
theorem inStep (h : b.InStep s) (henters : b.Enters b' j e) :
    b'.InStep s ∧ j ∈ b'.jobs ∧ b'.gate.phase j.number = .granted := by
  cases henters with
  | started now a granted early =>
      refine ⟨h.enroll now a, ?_, (h.fits.gate.phase_of_acquire granted).2⟩
      exact List.mem_append_right _ (List.mem_singleton_self _)
  | turned now j request mem stage granted =>
      have hnumber : j.number = request := by
        simp [Job.number, Stage.number, stage]
      have hphase := h.fits.gate.phase_of_resume granted
      refine ⟨⟨?_, h.follows, h.begun⟩, mem, hnumber ▸ hphase⟩
      -- The ticket is that of no other job, and that of a job which waits no more.
      refine ⟨h.fits.gate.step _, h.fits.sorted, h.fits.lt_started, ?_, ?_⟩
      · exact fun k hk => Nat.le_trans (h.fits.le_issued k hk) (Gate.issued_le_step b.gate _)
      · intro k hk t w hstage
        have hid : k.id ≠ j.id := by
          intro hid
          have heq : k = j := List.inj_on_of_nodup_map h.fits.nodup hk mem hid
          rw [heq, stage] at hstage
          simp at hstage
        have hne : t ≠ request := by
          simpa [Job.number, Stage.number, hstage, stage] using h.fits.number_ne hk mem hid
        exact (Gate.phase_step (.resume now request) hne).trans (h.fits.locked k hk t w hstage)

/-- A job that has just got the gate goes on to its request or to its end. -/
theorem change (h : b.InStep s) (henters : b.Enters b' j e) :
    b.Change (b'.enter j j.number).1 (some (b'.enter j j.number).2)
      (e :: (b'.enter j j.number).2.moves j.number)
      ((b'.enter j j.number).2.body? j.number j.action none) := by
  rcases henters.inStep h with ⟨hstep, -, hphase⟩
  rw [enter_eq hstep.fits.gate hphase, henters.view_eq]
  cases hbegin : j.action.begin b.view with
  | asking w => exact .asking henters w hbegin
  | ended v result => exact .done henters v result hbegin

end Enters

namespace InStep

/-- An action that needs the gate is enrolled; it gets the gate at once, or waits for it. -/
theorem start_cases (h : b.InStep s) (now : Nat) {a : Action} (hearly : a.early? b.view = none) :
    (b.Enters (b.enroll now a) (b.newJob a) (.acquire now) ∧
        (b.gate.acquire now).2 = .granted (b.newJob a).number ∧
        b.start now a = (b.enroll now a).enter (b.newJob a) (b.newJob a).number) ∨
      ((∃ request, (b.gate.acquire now).2 = .queued request) ∧
        b.start now a = (b.enroll now a, .waiting b.started)) := by
  cases hreply : (b.gate.acquire now).2 with
  | granted ticket =>
      have hgranted : (b.gate.step (.acquire now)).2 = .admitted (.granted ticket) := by
        simp [Gate.step, hreply]
      rcases h.fits.gate.phase_of_acquire hgranted with ⟨rfl, -⟩
      refine Or.inl ⟨.started now a hgranted hearly, rfl, ?_⟩
      simp [start, hearly, hreply, Gate.step, Board.enroll, newJob, Job.number, Stage.number]
  | queued request =>
      have hrequest : request = b.gate.slot.nextId := by
        have hjoined := Gate.joined_acquire b.gate now
        simpa [Gate.step, hreply, Gate.joined] using hjoined
      refine Or.inr ⟨⟨request, rfl⟩, ?_⟩
      simp [start, hearly, hreply, Gate.step, Board.enroll, newJob, hrequest]

/-- An action that is started is over at once, waits for the gate, or gets it. -/
theorem change_start (h : b.InStep s) (now : Nat) (a : Action) :
    b.Change (b.step (.start now a)).1 (b.step (.start now a)).2 (b.moves (.start now a))
      (b.body? (.start now a)) := by
  simp only [Board.step, moves, body?]
  cases hearly : a.early? b.view with
  | some result =>
      have hstart : b.start now a = (b, .ended result) := by
        simp [start, hearly]
      rw [hstart]
      refine .idle _ _ rfl (fun r hr => ⟨a, ?_⟩) (by simp)
      rw [hearly]
      simpa using hr
  | none =>
      rcases h.start_cases now hearly with ⟨henters, hreply, hstart⟩ | ⟨⟨_, hreply⟩, hstart⟩
      · simp only [hreply, hstart]
        exact henters.change h
      · simp only [hreply, hstart]
        exact .queued now a hearly

/-- A job that goes on waits for the gate, gives up, or gets it. -/
theorem change_resume (h : b.InStep s) (now id : Nat) :
    b.Change (b.step (.resume now id)).1 (b.step (.resume now id)).2 (b.moves (.resume now id))
      (b.body? (.resume now id)) := by
  simp only [Board.step, moves, body?]
  cases hjob : b.job? id with
  | none =>
      have hresume : b.resume now id = (b, .waiting id) := by
        simp [resume, hjob]
      rw [hresume]
      exact .idle _ _ rfl (by simp) (by simp)
  | some j =>
      rcases mem_of_job? hjob with ⟨hmem, rfl⟩
      rcases j with ⟨id, action, stage⟩
      cases stage with
      | calling ticket w =>
          have hresume : b.resume now id = (b, .waiting id) := by
            simp [resume, hjob]
          rw [hresume]
          exact .idle _ _ rfl (by simp) (by simp)
      | queued request =>
          rcases Gate.resume_cases b.gate now request with heq | ⟨-, -, heq⟩ | ⟨-, -, heq⟩
          · have hresume : b.resume now id = (b, .waiting id) := by
              simp [resume, hjob, heq]
            have hstill : b.gate.run [.resume now request] = b.gate := by
              rw [Gate.run_cons, Gate.step, heq]
              rfl
            simp only [hresume, heq]
            exact .idle _ _ hstill (by simp) (by simp)
          · have hgranted : (b.gate.step (.resume now request)).2 = .turned .granted := by
              rw [Gate.step, heq]
            have henters := Enters.turned now _ request hmem rfl hgranted
            have hresume : b.resume now id =
                Board.enter { b with gate := (b.gate.step (.resume now request)).1 }
                  { id, action, stage := .queued request } request := by
              simp [resume, hjob, Gate.step, heq]
            simp only [hresume, heq]
            exact henters.change h
          · have hresume : b.resume now id =
                (b.dismiss { id, action, stage := .queued request } [.resume now request]
                    (action.afterGateError b.view),
                  .ended (.error (.gate b.gate.timeoutError))) := by
              simp only [resume, hjob, heq, close, dismiss, Gate.run_cons, Gate.run_nil, Gate.step]
              rfl
            simp only [hresume, heq]
            exact .gone _ hmem _ (fun _ => rfl) _ _ (Or.inl ⟨rfl, rfl⟩)

/-- A job that hears from the backend shows the answer and gives the gate back. -/
theorem answer_eq (h : b.InStep s) {j : Job} {t : Nat} {w : Await}
    (hjob : b.job? j.id = some j) (hstage : j.stage = .calling t w) (respond : Responder) :
    b.answer j.id respond =
      (b.dismiss j [.unlock t, .drop t] (w.finish (respond w.request) b.view).1,
        .ended (w.finish (respond w.request) b.view).2) := by
  have hmem := (mem_of_job? hjob).1
  have hphase := h.fits.locked j hmem t w hstage
  have hbegin := h.begun j hmem t w hstage
  have hleave := leave_eq (b := { b with view := (w.finish (respond w.request) b.view).1 })
    hphase fun e he => Await.afterGateError_finish hbegin he
  rcases j with ⟨id, action, stage⟩
  obtain rfl : stage = .calling t w := hstage
  simp only [answer, hjob, hleave]
  rfl

/-- A job that hears from the backend is over. -/
theorem change_answer (h : b.InStep s) (id : Nat) (respond : Responder) :
    b.Change (b.step (.answer id respond)).1 (b.step (.answer id respond)).2
      (b.moves (.answer id respond)) (b.body? (.answer id respond)) := by
  simp only [Board.step, moves, body?]
  cases hjob : b.job? id with
  | none =>
      have hanswer : b.answer id respond = (b, .waiting id) := by
        simp [answer, hjob]
      rw [hanswer]
      exact .idle _ _ rfl (by simp) (by simp)
  | some j =>
      rcases mem_of_job? hjob with ⟨hmem, rfl⟩
      rcases j with ⟨id, action, stage⟩
      cases stage with
      | queued request =>
          have hanswer : b.answer id respond = (b, .waiting id) := by
            simp [answer, hjob]
          rw [hanswer]
          exact .idle _ _ rfl (by simp) (by simp)
      | calling ticket w =>
          have hanswer := h.answer_eq hjob rfl respond
          simp only [hanswer]
          exact .answered _ hmem w rfl respond

/-- A job that is given up leaves the gate. -/
theorem change_cancel (b : Board) (id : Nat) :
    b.Change (b.step (.cancel id)).1 (b.step (.cancel id)).2 (b.moves (.cancel id))
      (b.body? (.cancel id)) := by
  simp only [Board.step, moves, body?]
  cases hjob : b.job? id with
  | none =>
      have hcancel : b.cancel id = b := by
        simp [cancel, hjob]
      rw [hcancel]
      exact .idle _ _ rfl (by simp) (by simp)
  | some j =>
      rcases mem_of_job? hjob with ⟨hmem, rfl⟩
      rcases j with ⟨id, action, stage⟩
      cases stage with
      | queued request =>
          have hcancel : b.cancel id =
              b.dismiss { id, action, stage := .queued request } [.cancel request] b.view := by
            simp only [cancel, hjob]
            rfl
          rw [hcancel]
          exact .gone _ hmem _ (fun _ => rfl) b.view _ (Or.inr ⟨rfl, rfl⟩)
      | calling ticket w =>
          have hcancel : b.cancel id =
              b.dismiss { id, action, stage := .calling ticket w } [.drop ticket] b.view := by
            simp only [cancel, hjob]
            rfl
          rw [hcancel]
          exact .gone _ hmem _ (fun _ => rfl) b.view _ (Or.inr ⟨rfl, rfl⟩)

/-- Others do not use the requests and tickets of the jobs. -/
theorem change_outside (b : Board) (e : Gate.Event) :
    b.Change (b.step (.outside e)).1 (b.step (.outside e)).2 (b.moves (.outside e))
      (b.body? (.outside e)) := by
  simp only [Board.step, moves, body?, Board.outside]
  split
  · exact .idle _ _ rfl (by simp) (by simp)
  · rename_i hours
    refine .outside e fun j hj heq => hours ?_
    rw [isOurs, List.any_eq_true]
    exact ⟨j, hj, by simpa using heq⟩

/-- This is all that an event can do. -/
theorem change (h : b.InStep s) (e : Event) :
    b.Change (b.step e).1 (b.step e).2 (b.moves e) (b.body? e) := by
  cases e with
  | start now a => exact h.change_start now a
  | resume now job => exact h.change_resume now job
  | answer job respond => exact h.change_answer job respond
  | cancel job => exact change_cancel b job
  | outside e => exact change_outside b e

end InStep
end Board
end AwardsDesk
