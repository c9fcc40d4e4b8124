import AwardsDesk.Proofs.Board.Change

/-!
# Serializability

Actions on a board overlap, but what they do while they hold the gate does not.  At every
moment of a run the board shows what it would show if the bodies that have ended by then
had been run one after another, without a gate, in the order in which they were granted
it.

Main definitions:

- Structure {lit}`Board.Serializable`: what a run has in common with the serial run of its
  bodies.

Main results:

- Theorems {lit}`Board.InStep.step` and {lit}`Board.InStep.run`: a board shows what the
  bodies left.
- Theorem {lit}`Board.Change.alike`: what does not end well has no effect.
- Theorem {lit}`Board.InStep.bodies_eq_nil`: while a job waits for the backend no body ends.
- Theorem {lit}`Board.serializable_run`: every run is serializable.
-/

namespace AwardsDesk
namespace Board

variable {b : Board} {s : View}

/-! ## Staying in step -/

namespace InStep

/-- The other jobs stay in step when one is over that owns the slot, whatever is left of its
body. -/
theorem dismiss_owner (h : b.InStep s) {j : Job} (hj : j ∈ b.jobs)
    (hgrant : b.gate.slot.grant = some j.number) {es : List Gate.Event}
    (hes : ∀ e ∈ es, e.About j.number) {v s' : View} (hfollows : v.Follows s') :
    (b.dismiss j es v).InStep s' where
  fits := h.fits.dismiss hj hes v
  follows := hfollows
  begun k hk t w hstage := by
    rcases h.fits.mem_removeJob.1 hk with ⟨hmem, hne⟩
    exact absurd (h.fits.id_eq_of_calling hj hgrant hmem hstage) hne

/-- The other jobs stay in step when one is over that has done nothing. -/
theorem dismiss (h : b.InStep s) {j : Job} (hj : j ∈ b.jobs) {es : List Gate.Event}
    (hes : ∀ e ∈ es, e.About j.number) {v : View} (hfollows : v.Follows s) :
    (b.dismiss j es v).InStep s where
  fits := h.fits.dismiss hj hes v
  follows := hfollows
  begun k hk := h.begun k (h.fits.mem_removeJob.1 hk).1

/-- A job that makes its request stays in step. -/
theorem call (h : b.InStep s) {j : Job} (hj : j ∈ b.jobs)
    (hphase : b.gate.phase j.number = .granted) {w : Await}
    (hbegin : j.action.begin b.view = .asking w) : (b.call j w).InStep s where
  fits := h.fits.call hj hphase w
  follows := h.follows
  begun k hk t w' hstage := by
    rcases h.fits.mem_call hj hk with ⟨hmem, -⟩ | rfl
    · exact h.begun k hmem t w' hstage
    · rcases Stage.calling.inj hstage with ⟨-, rfl⟩
      exact h.follows.begin_asking hbegin

end InStep

/-- A body that asked nothing leaves what it leaves on a view that the board follows. -/
theorem follows_show_of_ended {v v' : View} (h : v.Follows s) {x : Body} (hasked : x.asked = none)
    (hbegin : x.action.begin v = .ended v' x.result) :
    v'.Follows (x.show s) ∧ (x.Agrees s ∨ x.FindsNoNote) := by
  simp only [Body.show, Body.Agrees, hasked]
  rcases h.begin_ended hbegin with ⟨s', hs, hfollows⟩ | ⟨hresult, rfl, text, haction⟩
  · rw [hs]
    exact ⟨hfollows, Or.inl ⟨s', rfl⟩⟩
  · refine ⟨?_, Or.inr ⟨hasked, hresult⟩⟩
    cases hs : x.action.begin s with
    | asking w => exact Or.inr rfl
    | ended s' result =>
        rcases Action.begin_ended_cases hs with ⟨event, hselect, -⟩ | ⟨rfl | rfl, -⟩
        · simp [haction] at hselect
        · exact Or.inr rfl
        · exact Or.inl rfl

/-- A body that was answered leaves what it leaves on a view that the board follows. -/
theorem follows_show_of_asked {v : View} (h : v.Follows s) {x : Body} {w : Await}
    {respond : Responder} (hasked : x.asked = some (w, respond))
    (hbegin : x.action.begin s = .asking w)
    (hresult : x.result = (w.finish (respond w.request) v).2) :
    (w.finish (respond w.request) v).1.Follows (x.show s) ∧ x.Agrees s := by
  rcases h.finish w (respond w.request) with ⟨hfollows, heq⟩
  refine ⟨?_, ?_⟩
  · simp only [Body.show, hasked, hbegin]
    exact hfollows
  · simp only [Body.Agrees, hasked]
    exact ⟨hbegin, hresult.trans heq⟩

namespace Change

variable {b' : Board} {reply : Option Advance} {es : List Gate.Event} {x : Option Body}

/-- What an event does leaves the board in step with the bodies that have ended. -/
theorem inStep (h : b.InStep s) (c : b.Change b' reply es x) : b'.InStep (serial s x.toList) := by
  cases c with
  | idle reply es still told quiet => exact h
  | outside e strange => exact ⟨h.fits.outside strange, h.follows, h.begun⟩
  | queued now a early => exact h.enroll now a
  | gone j mem e about v reply fate =>
      have hfollows : v.Follows s := by
        rcases fate with ⟨rfl, -⟩ | ⟨rfl, -⟩
        · exact h.follows.afterGateError j.action
        · exact h.follows
      exact h.dismiss mem (List.forall_mem_singleton.2 about) hfollows
  | asking enters w begins =>
      rcases enters.inStep h with ⟨hstep, hmem, hphase⟩
      exact hstep.call hmem hphase (enters.view_eq ▸ begins)
  | @done b' j e enters v result begins =>
      rcases enters.inStep h with ⟨hstep, hmem, hphase⟩
      have hgrant := hstep.fits.gate.grant_of_granted hphase
      refine hstep.dismiss_owner hmem hgrant ?_ (follows_show_of_ended h.follows rfl begins).1
      simp [Gate.Event.About, Gate.subject]
  | answered j mem w stage respond =>
      have hgrant := h.fits.ticket_eq mem stage
      have hbegin := h.begun j mem _ w stage
      refine h.dismiss_owner mem hgrant ?_ (follows_show_of_asked h.follows rfl hbegin rfl).1
      simp [Gate.Event.About, Gate.subject]

/-- A body does on the view left by those before it what it did, unless it is a note to be
saved that finds the editor closed. -/
theorem agrees (h : b.InStep s) {y : Body} (c : b.Change b' reply es (some y)) :
    y.Agrees s ∨ y.FindsNoNote := by
  cases c with
  | done enters v result begins => exact (follows_show_of_ended h.follows rfl begins).2
  | answered j mem w stage respond =>
      have hbegin := h.begun j mem _ w stage
      exact Or.inl (follows_show_of_asked h.follows rfl hbegin rfl).2

/-- What is done at the gate in an event is what happens to it. -/
theorem gate_eq (c : b.Change b' reply es x) : b'.gate = b.gate.run es := by
  cases c with
  | idle reply es still told quiet => exact still.symm
  | outside e strange => rfl
  | queued now a early => rfl
  | gone j mem e about v reply fate => rfl
  | asking enters w begins =>
      rw [Gate.run_cons, ← enters.gate_eq]
      rfl
  | done enters v result begins =>
      rw [Gate.run_cons, ← enters.gate_eq]
      rfl
  | answered j mem w stage respond => rfl

/-- The ticket of a body that ends is unlocked. -/
theorem ticket_mem (h : b.InStep s) {y : Body} (c : b.Change b' reply es (some y)) :
    y.ticket ∈ (b.gate.trace es).filterMap Gate.unlocked := by
  cases c with
  | done enters v result begins =>
      rcases enters.inStep h with ⟨hstep, -, hphase⟩
      rcases hstep.fits.gate.lock_step hphase with ⟨-, -, hlocked⟩
      have hunlock := (Gate.unlock_step hlocked).2
      rw [enters.gate_eq] at hunlock
      simp [Gate.trace, Gate.unlocked, hunlock]
  | answered j mem w stage respond =>
      have hunlock := (Gate.unlock_step (h.fits.locked j mem _ w stage)).2
      simp [Gate.trace, Gate.unlocked, hunlock]

/-- What does not end well has no effect on what is shown. -/
theorem alike (c : b.Change b' reply es x) (hnot : ∀ o, reply ≠ some (.ended (.ok o))) :
    b'.view.Alike b.view := by
  cases c with
  | idle reply es still told quiet => exact .refl _
  | outside e strange => exact .refl _
  | queued now a early => exact .refl _
  | gone j mem e about v reply fate =>
      rcases fate with ⟨rfl, -⟩ | ⟨rfl, -⟩
      · exact j.action.alike_afterGateError b.view
      · exact .refl _
  | asking enters w begins => exact .of_eq enters.view_eq
  | done enters v result begins =>
      cases result with
      | ok o => exact absurd rfl (hnot o)
      | error e => exact Action.alike_of_begin begins
  | answered j mem w stage respond =>
      cases hresult : (w.finish (respond w.request) b.view).2 with
      | ok o => exact absurd (by rw [hresult]) (hnot o)
      | error e => exact Await.alike_of_finish hresult

end Change

namespace InStep

/-- An event leaves the board in step with the bodies that have ended. -/
theorem step (h : b.InStep s) (e : Event) :
    (b.step e).1.InStep (serial s (b.body? e).toList) :=
  (h.change e).inStep h

/-- A run leaves the board in step with the bodies that have ended. -/
theorem run (h : b.InStep s) (es : List Event) :
    (b.run es).InStep (serial s (b.bodies es)) := by
  induction es generalizing b s with
  | nil => exact h
  | cons e es ih =>
      rw [run_cons, bodies, serial_append]
      exact ih (h.step e)

/-- What is done at the gate in a run is what happens to it. -/
theorem gate_run (h : b.InStep s) (es : List Event) :
    (b.run es).gate = b.gate.run (b.gateRun es) := by
  induction es generalizing b s with
  | nil => rfl
  | cons e es ih =>
      rw [run_cons, gateRun, Gate.run_append, ← (h.change e).gate_eq]
      exact ih (h.step e)

/-- Bodies end in the order in which their tickets are unlocked. -/
theorem tickets_sublist (h : b.InStep s) (es : List Event) :
    ((b.bodies es).map Body.ticket).Sublist
      ((b.gate.trace (b.gateRun es)).filterMap Gate.unlocked) := by
  induction es generalizing b s with
  | nil => exact List.nil_sublist _
  | cons e es ih =>
      rw [bodies, gateRun, Gate.trace_append, List.map_append, List.filterMap_append,
        ← (h.change e).gate_eq]
      refine List.Sublist.append ?_ (ih (h.step e))
      have hchange := h.change e
      cases hbody : b.body? e with
      | none => exact List.nil_sublist _
      | some x =>
          rw [hbody] at hchange
          exact List.singleton_sublist.2 (hchange.ticket_mem h)

/-- Every body does what it did on the view left by those before it. -/
theorem agrees_run (h : b.InStep s) {es : List Event} {before after : List Body} {x : Body}
    (hbodies : b.bodies es = before ++ x :: after) :
    x.Agrees (serial s before) ∨ x.FindsNoNote := by
  induction es generalizing b s before with
  | nil => simp [bodies] at hbodies
  | cons e es ih =>
      have hchange := h.change e
      have hnext := h.step e
      rw [bodies] at hbodies
      cases hbody : b.body? e with
      | none =>
          rw [hbody] at hbodies hnext
          exact ih hnext hbodies
      | some y =>
          rw [hbody] at hbodies hnext hchange
          cases before with
          | nil =>
              obtain ⟨rfl, -⟩ : y = x ∧ _ := by simpa using hbodies
              exact hchange.agrees h
          | cons z before =>
              obtain ⟨rfl, hrest⟩ : y = z ∧ (b.step e).1.bodies es = before ++ x :: after := by
                simpa using hbodies
              exact ih hnext hrest

end InStep

/-! ## While a job waits for the backend -/

/-- The job of a number is over. -/
def IsOver (b : Board) (id : Nat) : Prop :=
  id < b.started ∧ ∀ j ∈ b.jobs, j.id ≠ id

namespace IsOver

variable {b' : Board} {id : Nat}

/-- A job that is over stays so when another one is started. -/
theorem enroll (h : b.IsOver id) (now : Nat) (a : Action) : (b.enroll now a).IsOver id := by
  refine ⟨Nat.lt_succ_of_lt h.1, List.forall_mem_append.2 ⟨h.2, ?_⟩⟩
  exact List.forall_mem_singleton.2 (Nat.ne_of_lt h.1).symm

/-- A job that is over stays so when another one gets the gate. -/
theorem of_enters (h : b.IsOver id) {j : Job} {e : Gate.Event} (henters : b.Enters b' j e) :
    b'.IsOver id := by
  cases henters with
  | started now a granted early => exact h.enroll now a
  | turned now j request mem stage granted => exact h

/-- A job that is over stays so when another one makes a request. -/
theorem call (h : b.IsOver id) (j : Job) (w : Await) : (b.call j w).IsOver id := by
  refine ⟨h.1, fun k' hk' => ?_⟩
  rcases List.mem_map.1 hk' with ⟨k, hk, rfl⟩
  by_cases hid : k.id = j.id
  · simpa [hid] using h.2 k hk
  · simpa [hid] using h.2 k hk

/-- A job that is over stays so when another one is. -/
theorem dismiss (h : b.IsOver id) (j : Job) (es : List Gate.Event) (v : View) :
    (b.dismiss j es v).IsOver id :=
  ⟨h.1, fun k hk => h.2 k (List.mem_of_mem_eraseP hk)⟩

end IsOver

/-- A job that is dismissed is over. -/
theorem Fits.isOver_dismiss (h : b.Fits) {j : Job} (hj : j ∈ b.jobs) (es : List Gate.Event)
    (v : View) : (b.dismiss j es v).IsOver j.id :=
  ⟨h.lt_started j hj, fun _ hk => (h.mem_removeJob.1 hk).2⟩

namespace Change

variable {b' : Board} {reply : Option Advance} {es : List Gate.Event} {x : Option Body}

/-- A job that is over stays so. -/
theorem isOver (c : b.Change b' reply es x) {id : Nat} (hover : b.IsOver id) : b'.IsOver id := by
  cases c with
  | idle reply es still told quiet => exact hover
  | outside e strange => exact hover
  | queued now a early => exact hover.enroll now a
  | gone j mem e about v reply fate => exact hover.dismiss j _ _
  | asking enters w begins => exact (hover.of_enters enters).call _ w
  | done enters v result begins => exact (hover.of_enters enters).dismiss _ _ _
  | answered j mem w stage respond => exact hover.dismiss j _ _

/-- While a job waits for the backend no other gets the gate. -/
theorem not_enters (h : b.InStep s) {j k : Job} {e : Gate.Event} (henters : b.Enters b' k e)
    (hj : j ∈ b.jobs) {t : Nat} {w : Await} (hstage : j.stage = .calling t w) : False := by
  rcases henters.inStep h with ⟨hstep, hk, hphase⟩
  have hgrant := hstep.fits.gate.grant_of_granted hphase
  have hmem := henters.mem_jobs hj
  have hid := hstep.fits.id_eq_of_calling hk hgrant hmem hstage
  have heq : j = k := List.inj_on_of_nodup_map hstep.fits.nodup hmem hk hid
  rw [heq, henters.stage_eq] at hstage
  simp at hstage

/-- A job that waits for the backend goes on waiting while no body ends, or is over. -/
theorem calling (h : b.InStep s) (c : b.Change b' reply es x) {j : Job} (hj : j ∈ b.jobs)
    {t : Nat} {w : Await} (hstage : j.stage = .calling t w) :
    (j ∈ b'.jobs ∧ x = none) ∨ b'.IsOver j.id := by
  cases c with
  | idle reply es still told quiet => exact Or.inl ⟨hj, rfl⟩
  | outside e strange => exact Or.inl ⟨hj, rfl⟩
  | queued now a early => exact Or.inl ⟨List.mem_append_left _ hj, rfl⟩
  | gone k mem e about v reply fate =>
      by_cases hid : j.id = k.id
      · rw [hid]
        exact Or.inr (h.fits.isOver_dismiss mem _ _)
      · exact Or.inl ⟨h.fits.mem_removeJob.2 ⟨hj, hid⟩, rfl⟩
  | asking enters w begins => exact (not_enters h enters hj hstage).elim
  | done enters v result begins => exact (not_enters h enters hj hstage).elim
  | answered k mem w stage respond =>
      rw [h.fits.id_eq_of_calling mem (h.fits.ticket_eq mem stage) hj hstage]
      exact Or.inr (h.fits.isOver_dismiss mem _ _)

end Change

namespace InStep

/-- A job that is over stays so in every run. -/
theorem isOver_run (h : b.InStep s) {id : Nat} (hover : b.IsOver id) (es : List Event) :
    (b.run es).IsOver id := by
  induction es generalizing b s with
  | nil => exact hover
  | cons e es ih => exact ih (h.step e) ((h.change e).isOver hover)

/-- While a job waits for the backend no body ends. -/
theorem bodies_eq_nil (h : b.InStep s) {j : Job} (hj : j ∈ b.jobs) {t : Nat} {w : Await}
    (hstage : j.stage = .calling t w) {es : List Event} (hlater : ¬(b.run es).IsOver j.id) :
    b.bodies es = [] := by
  induction es generalizing b s with
  | nil => rfl
  | cons e es ih =>
      rcases (h.change e).calling h hj hstage with ⟨hmem, hbody⟩ | hover
      · rw [bodies, hbody, ih (h.step e) hmem hlater]
        rfl
      · exact absurd ((h.step e).isOver_run hover es) hlater

end InStep

/-- A job whose request is under way waits for the backend. -/
theorem job?_of_request? {id : Nat} (h : (b.request? id).isSome) :
    ∃ j t w, b.job? id = some j ∧ j.stage = .calling t w := by
  unfold request? at h
  split at h
  · rename_i id' action t w hjob
    exact ⟨_, t, w, hjob, rfl⟩
  · simp at h

/-- A job whose request is under way is one of the jobs. -/
theorem exists_calling_of_request? {id : Nat} (h : (b.request? id).isSome) :
    ∃ j ∈ b.jobs, j.id = id ∧ ∃ t w, j.stage = .calling t w := by
  rcases job?_of_request? h with ⟨j, t, w, hjob, hstage⟩
  rcases mem_of_job? hjob with ⟨hmem, hid⟩
  exact ⟨j, hmem, hid, t, w, hstage⟩

/-! ## Serializability -/

/-- A run of a board is as good as the serial run of the bodies that ended in it. -/
structure Serializable (b : Board) (es : List Event) : Prop where
  /-- What is done at the gate is what happens to it. -/
  gate : (b.run es).gate = b.gate.run (b.gateRun es)
  /-- The event, the layout, the rows and the cells are those of the serial run. -/
  shown : (b.run es).view.Alike (serial b.view (b.bodies es))
  /-- The bodies are in the order in which their requests were granted the gate. -/
  order : ((b.bodies es).map Body.ticket).Sublist (b.gate.grants (b.gateRun es))
  /-- Every body does in the serial run what it did, if it does not find the note editor
  closed by another note that could not be saved. -/
  agrees : ∀ before x after, b.bodies es = before ++ x :: after →
    x.Agrees (serial b.view before) ∨ x.FindsNoNote
  /-- What does not end well has no effect on what is shown. -/
  no_effect : ∀ e, (∀ o, ((b.run es).step e).2 ≠ some (.ended (.ok o))) →
    ((b.run es).step e).1.view.Alike (b.run es).view
  /-- What is shown does not change while a job waits for the backend. -/
  undisturbed : ∀ id more, ((b.run es).request? id).isSome →
    ((b.run (es ++ more)).request? id).isSome → (b.run (es ++ more)).view.Alike (b.run es).view

/-- At every moment of every run a board shows what the bodies that have ended would have
shown one after another, in the order in which they were granted the gate. -/
theorem serializable_run (name : String) (options : Gate.Options) (v : View) (es : List Event) :
    Serializable { gate := { name, options }, view := v } es := by
  have hnew := inStep_initial name options v
  have h := hnew.run es
  refine ⟨hnew.gate_run es, h.follows.alike, ?_, fun _ _ _ => hnew.agrees_run,
    fun e => (h.change e).alike, ?_⟩
  · refine (hnew.tickets_sublist es).trans ?_
    exact hnew.fits.gate.unlocked_sublist_grants _
  · intro id more hbefore hafter
    rcases exists_calling_of_request? hbefore with ⟨j, hj, hid, t, w, hstage⟩
    rcases exists_calling_of_request? hafter with ⟨k, hk, hkid, -⟩
    rw [run_append] at hk ⊢
    have hbodies := h.bodies_eq_nil hj hstage fun hover => hover.2 k hk (hkid.trans hid.symm)
    have hmore := h.run more
    rw [hbodies] at hmore
    exact hmore.follows.alike.trans h.follows.alike.symm

end Board
end AwardsDesk
