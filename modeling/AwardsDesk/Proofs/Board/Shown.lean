import AwardsDesk.Proofs.Board.Serial

/-!
# What is asked is shown

A job that waits for the backend has asked about what the board shows, and the board goes on
showing it until the answer comes: the event, and the holder of the award in the cell that
the answer is for.  A job keeps its action, and a board that shows an event goes on showing
one.

Main definitions:

- Definition {lit}`Await.Shown`: a request is about what a view shows.

Main results:

- Theorem {lit}`Board.InStep.shown`: requests under way are about what the board shows.
- Theorem {lit}`Board.Change.eventId_ne_none`: a board that shows an event goes on showing
  one.
- Theorems {lit}`Board.Change.action_of_mem` and {lit}`Board.InStep.action_run`: a job keeps
  its action.
-/

namespace AwardsDesk
namespace Board

/-! ## Views -/

namespace View

variable {v w : View}

/-- Views that are alike have the same cells. -/
theorem Alike.cell?_eq (h : v.Alike w) (key : CellKey) : v.cell? key = w.cell? key := by
  rw [cell?, cell?, h.cells]

/-- Views that are alike have the same holders of awards. -/
theorem Alike.awardeeAt_eq (h : v.Alike w) (key : CellKey) :
    v.awardeeAt key = w.awardeeAt key := by
  rw [awardeeAt, awardeeAt, h.cell?_eq]

/-- The holder of an award is shown in its cell. -/
theorem awardeeAt_eq_some_iff {key : CellKey} {awardee : UInt64} :
    v.awardeeAt key = some awardee ↔ ∃ c, v.cell? key = some c ∧ c.awardeeId = some awardee := by
  simp [awardeeAt, Option.bind_eq_some_iff]

/-- A note can be saved for the holder of the award in the cell under the editor. -/
theorem noteTarget_eq_some_iff {key : CellKey} {awardee : UInt64} :
    v.noteTarget = some (key, awardee) ↔
      (∃ e, v.noteEditor = some e ∧ e.cell = key) ∧ v.awardeeAt key = some awardee := by
  constructor
  · intro h
    rcases Option.bind_eq_some_iff.1 h with ⟨e, he, htarget⟩
    rcases Option.map_eq_some_iff.1 htarget with ⟨holder, hholder, hpair⟩
    obtain ⟨rfl, rfl⟩ := Prod.mk.inj hpair
    exact ⟨⟨e, he, rfl⟩, hholder⟩
  · rintro ⟨⟨e, he, rfl⟩, hholder⟩
    simp [noteTarget, he, hholder]

/-- Awards change nothing but the cells. -/
theorem fill_eq (v : View) (awards : List Award) :
    v.fill awards = { v with cells := (v.fill awards).cells } := by
  unfold fill
  induction awards generalizing v with
  | nil => rfl
  | cons a awards ih =>
      rw [List.foldl_cons, ih]
      rfl

end View

/-! ## Requests -/

/-- What a request is about is shown: the event, and whether it is laid out or who holds the
award in a cell. -/
def Await.Shown (w : Await) (v : View) : Prop :=
  match w with
  | awards event needDivisions => v.eventId = some event ∧ needDivisions = !v.divisionsRendered
  | status event awardee was key =>
    v.eventId = some event ∧
      ∃ c, v.cell? key = some c ∧ c.awardeeId = some awardee ∧ c.pickedUp = was
  | notes event awardee key => v.eventId = some event ∧ v.awardeeAt key = some awardee
  | saved event awardee _ key => v.eventId = some event ∧ v.awardeeAt key = some awardee

/-- An action asks about what is shown. -/
theorem Action.Asks.shown {v : View} {a : Action} {w : Await} (h : a.Asks v w) : w.Shown v := by
  cases h with
  | refresh event shown => exact ⟨shown, rfl⟩
  | toggle event awardee key c shown cell holder => exact ⟨shown, c, cell, holder, rfl⟩
  | openNote event awardee key shown holder => exact ⟨shown, holder⟩
  | saveNote event awardee key text shown target =>
      exact ⟨shown, (View.noteTarget_eq_some_iff.1 target).2⟩

namespace Await

variable {w : Await} {v v' : View}

/-- What is shown in a view is also shown in one like it. -/
theorem Shown.of_alike (h : w.Shown v) (halike : v.Alike v') : w.Shown v' := by
  cases w with
  | awards event needDivisions =>
      rcases h with ⟨hevent, hneed⟩
      exact ⟨halike.eventId ▸ hevent, halike.divisionsRendered ▸ hneed⟩
  | status event awardee was key =>
      rcases h with ⟨hevent, c, hcell, hholder⟩
      exact ⟨halike.eventId ▸ hevent, c, halike.cell?_eq key ▸ hcell, hholder⟩
  | notes event awardee key =>
      rcases h with ⟨hevent, hholder⟩
      exact ⟨halike.eventId ▸ hevent, halike.awardeeAt_eq key ▸ hholder⟩
  | saved event awardee text key =>
      rcases h with ⟨hevent, hholder⟩
      exact ⟨halike.eventId ▸ hevent, halike.awardeeAt_eq key ▸ hholder⟩

/-- A request under way is about the event shown. -/
theorem Shown.eventId (h : w.Shown v) : v.eventId ≠ none := by
  have hsome : ∃ event, v.eventId = some event := by
    cases w with
    | awards event needDivisions => exact ⟨event, h.1⟩
    | status event awardee was key => exact ⟨event, h.1⟩
    | notes event awardee key => exact ⟨event, h.1⟩
    | saved event awardee text key => exact ⟨event, h.1⟩
  rcases hsome with ⟨event, hevent⟩
  simp [hevent]

/-- No answer changes the event. -/
theorem eventId_finish (w : Await) (answer : Except Error w.request.Answer) (v : View) :
    (w.finish answer v).1.eventId = v.eventId := by
  cases w with
  | awards event needDivisions =>
      cases answer with
      | error e => rfl
      | ok data =>
          cases needDivisions with
          | false =>
              change (v.fill data.awards).eventId = v.eventId
              rw [View.fill_eq]
          | true =>
              change ((v.layOut (data.divisions.getD [])).fill data.awards).eventId = v.eventId
              rw [View.fill_eq]
              rfl
  | status event awardee was key => cases answer <;> rfl
  | notes event awardee key => cases answer <;> rfl
  | saved event awardee text key => cases answer <;> rfl

end Await

/-! ## Jobs -/

variable {b b' : Board} {s : View}

/-- A job that waits for the backend has asked about what the board shows. -/
theorem InStep.shown (h : b.InStep s) {j : Job} (hj : j ∈ b.jobs) {t : Nat} {w : Await}
    (hstage : j.stage = .calling t w) : w.Shown b.view := by
  have hbegin := h.begun j hj t w hstage
  have hshown := (Action.asks_of_begin hbegin).shown
  exact hshown.of_alike h.follows.alike.symm

/-- A job that has just got the gate was there before, or has just been started. -/
theorem Enters.of_mem {j k : Job} {e : Gate.Event} (henters : b.Enters b' j e)
    (hk : k ∈ b'.jobs) :
    k ∈ b.jobs ∨ (k.id = b.started ∧ k.action.early? b.view = none) := by
  cases henters with
  | started now a granted early =>
      rcases List.mem_append.1 hk with hold | hnew
      · exact Or.inl hold
      · rw [List.mem_singleton.1 hnew]
        exact Or.inr ⟨rfl, early⟩
  | turned now j request mem stage granted => exact Or.inl hk

/-- No number of a job is taken back when a job gets the gate. -/
theorem Enters.started_le {j : Job} {e : Gate.Event} (henters : b.Enters b' j e) :
    b.started ≤ b'.started := by
  cases henters with
  | started now a granted early => exact Nat.le_succ _
  | turned now j request mem stage granted => exact Nat.le_refl _

namespace Change

variable {reply : Option Advance} {es : List Gate.Event} {x : Option Body}

/-- A board that shows an event goes on showing one. -/
theorem eventId_ne_none (c : b.Change b' reply es x) (hevent : b.view.eventId ≠ none) :
    b'.view.eventId ≠ none := by
  cases c with
  | idle reply es still told quiet => exact hevent
  | outside e strange => exact hevent
  | queued now a early => exact hevent
  | gone j mem e about v reply fate =>
      rcases fate with ⟨rfl, -⟩ | ⟨rfl, -⟩
      · exact (j.action.alike_afterGateError b.view).eventId ▸ hevent
      · exact hevent
  | asking enters w begins => exact enters.view_eq ▸ hevent
  | done enters v result begins =>
      rcases Action.begin_ended_cases begins with ⟨event, haction, -⟩ | ⟨rfl | rfl, -⟩
      · rw [haction] at begins
        obtain ⟨rfl, -⟩ := Begun.ended.inj begins
        simp [dismiss]
      · exact hevent
      · exact hevent
  | answered j mem w stage respond => exact (w.eventId_finish _ _).symm ▸ hevent

/-- A job after an event was there before, with the same action, or has just been started
and needs the gate. -/
theorem action_of_mem (c : b.Change b' reply es x) {k : Job} (hk : k ∈ b'.jobs) :
    (∃ j ∈ b.jobs, j.id = k.id ∧ j.action = k.action) ∨
      (k.id = b.started ∧ k.action.early? b.view = none) := by
  have hold : ∀ {l : List Job}, k ∈ l → l ⊆ b.jobs →
      ∃ j ∈ b.jobs, j.id = k.id ∧ j.action = k.action :=
    fun hmem hsub => ⟨k, hsub hmem, rfl, rfl⟩
  have henters : ∀ {b₁ : Board} {j k' : Job} {e : Gate.Event}, b.Enters b₁ j e → k' ∈ b₁.jobs →
      k'.id = k.id → k'.action = k.action →
      (∃ j ∈ b.jobs, j.id = k.id ∧ j.action = k.action) ∨
        (k.id = b.started ∧ k.action.early? b.view = none) := by
    intro b₁ j k' e henters hmem hid haction
    rcases henters.of_mem hmem with hthere | ⟨hnew, hearly⟩
    · exact Or.inl ⟨k', hthere, hid, haction⟩
    · exact Or.inr ⟨hid ▸ hnew, haction ▸ hearly⟩
  cases c with
  | idle reply es still told quiet => exact Or.inl ⟨k, hk, rfl, rfl⟩
  | outside e strange => exact Or.inl ⟨k, hk, rfl, rfl⟩
  | queued now a early =>
      rcases List.mem_append.1 hk with hthere | hnew
      · exact Or.inl ⟨k, hthere, rfl, rfl⟩
      · rw [List.mem_singleton.1 hnew]
        exact Or.inr ⟨rfl, early⟩
  | gone j mem e about v reply fate => exact Or.inl (hold hk List.eraseP_subset)
  | asking enters w begins =>
      rcases List.mem_map.1 hk with ⟨k', hmem, rfl⟩
      refine henters enters hmem ?_ ?_ <;> split <;> rfl
  | done enters v result begins =>
      exact henters enters (List.mem_of_mem_eraseP hk) rfl rfl
  | answered j mem w stage respond => exact Or.inl (hold hk List.eraseP_subset)

/-- No event takes back the number of a job. -/
theorem started_le (c : b.Change b' reply es x) : b.started ≤ b'.started := by
  cases c with
  | idle reply es still told quiet => exact Nat.le_refl _
  | outside e strange => exact Nat.le_refl _
  | queued now a early => exact Nat.le_succ _
  | gone j mem e about v reply fate => exact Nat.le_refl _
  | asking enters w begins => exact enters.started_le
  | done enters v result begins => exact enters.started_le
  | answered j mem w stage respond => exact Nat.le_refl _

/-- A job that makes a request has got the gate, and asks for what it finds. -/
theorem of_asking (h : b.InStep s) (c : b.Change b' reply es x) {id : Nat} {r : Request}
    (hreply : reply = some (.asking id r)) :
    ∃ j ∈ b'.jobs, j.id = id ∧ ∃ w, (∃ t, j.stage = .calling t w) ∧
      j.action.begin b.view = .asking w ∧ r = w.request := by
  cases c with
  | idle reply es still told quiet => exact absurd hreply (quiet id r)
  | outside e strange => simp at hreply
  | queued now a early => simp at hreply
  | gone j mem e about v reply fate =>
      rcases fate with ⟨-, hgate⟩ | ⟨-, hnone⟩
      · simp [hgate] at hreply
      · simp [hnone] at hreply
  | @asking b' j e enters w begins =>
      obtain ⟨rfl, rfl⟩ : j.id = id ∧ w.request = r := by simpa using hreply
      have hmem := (enters.inStep h).2.1
      have hcall : { j with stage := .calling j.number w } ∈ (b'.call j w).jobs :=
        List.mem_map.2 ⟨j, hmem, if_pos rfl⟩
      exact ⟨_, hcall, rfl, w, ⟨_, rfl⟩, begins, rfl⟩
  | done enters v result begins => simp at hreply
  | answered j mem w stage respond => simp at hreply

end Change

/-- A job is found by its number. -/
theorem Fits.job?_eq (h : b.Fits) {j : Job} (hj : j ∈ b.jobs) : b.job? j.id = some j :=
  find?_key_eq_some h.nodup hj

namespace InStep

/-- The request of a job that has just made one is under way. -/
theorem request?_of_asking (h : b.InStep s) (e : Event) {id : Nat} {r : Request}
    (hreply : (b.step e).2 = some (.asking id r)) : (b.step e).1.request? id = some r := by
  rcases (h.change e).of_asking h hreply with ⟨j, hj, rfl, w, ⟨t, hstage⟩, -, rfl⟩
  have hjob := (h.step e).fits.job?_eq hj
  rcases j with ⟨id, action, stage⟩
  obtain rfl : stage = .calling t w := hstage
  simp [request?, hjob]

/-- A board that shows an event goes on showing one in every run. -/
theorem eventId_ne_none_run (h : b.InStep s) (hevent : b.view.eventId ≠ none)
    (es : List Event) : (b.run es).view.eventId ≠ none := by
  induction es generalizing b s with
  | nil => exact hevent
  | cons e es ih => exact ih (h.step e) ((h.change e).eventId_ne_none hevent)

/-- A job keeps its action in every run. -/
theorem action_run (h : b.InStep s) {id : Nat} {a : Action} (hid : id < b.started)
    (haction : ∀ j ∈ b.jobs, j.id = id → j.action = a) (es : List Event) :
    ∀ j ∈ (b.run es).jobs, j.id = id → j.action = a := by
  induction es generalizing b s with
  | nil => exact haction
  | cons e es ih =>
      have hchange := h.change e
      refine ih (h.step e) (Nat.lt_of_lt_of_le hid hchange.started_le) ?_
      intro k hk hkid
      rcases hchange.action_of_mem hk with ⟨j, hj, hjid, hsame⟩ | ⟨hnew, -⟩
      · rw [← hsame]
        exact haction j hj (hjid.trans hkid)
      · omega

end InStep
end Board
end AwardsDesk
