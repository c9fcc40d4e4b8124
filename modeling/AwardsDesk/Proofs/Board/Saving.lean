import AwardsDesk.Proofs.Board.Asked
import AwardsDesk.Proofs.Board.Notes

/-!
# When a save is over

A call that saves a note closes the note editor, whatever it comes to.  What was saved is
shown in the cell that the editor was over when the request was made.  A call that could not
have the gate closes the editor without holding it, and by then the editor may be one that
another call has opened over another cell.

Main definitions:

- Inductive type {lit}`Board.Ends`: the ways in which a call ends.
- Structures {lit}`Board.Save` and {lit}`Board.Save.Of`: a note that was saved.
- Definition {lit}`Board.OpenedElsewhere`: the editor was opened over another cell.

Main results:

- Theorem {lit}`Board.InStep.ends`: a call ends in no other way.
- Theorem {lit}`Board.InStep.cell?_of_saved`: what was saved is shown in one cell.
- Theorem {lit}`Board.save_closes_editor`: the editor is closed when a save ends.
- Theorem {lit}`Board.failed_save_closes_any`: a save that could not have the gate closes
  whichever editor is open.
-/

namespace AwardsDesk
namespace Board

variable {b b' : Board} {s : View} {a : Action} {result : Except Error Outcome}

/-! ## How a call ends -/

/-- How a call ends in an event, with its result and the view that it leaves. -/
inductive Ends (b : Board) : Event → Action → Except Error Outcome → View → Prop where
  /-- It is over before it asks for the gate. -/
  | early (now : Nat) (a : Action) (result : Except Error Outcome)
      (early : a.early? b.view = some result) : Ends b (.start now a) a result b.view
  /-- Its wait for the gate was too long. -/
  | timedOut (now : Nat) (j : Job) (mem : j ∈ b.jobs) :
      Ends b (.resume now j.id) j.action (.error (.gate b.gate.timeoutError))
        (j.action.afterGateError b.view)
  /-- It got the gate and had nothing to ask. -/
  | done (e : Event) {b' : Board} {j : Job} {move : Gate.Event} (enters : b.Enters b' j move)
      (v : View) (result : Except Error Outcome)
      (begins : j.action.begin b.view = .ended v result) : Ends b e j.action result v
  /-- The backend has answered its request. -/
  | answered (j : Job) (mem : j ∈ b.jobs) (t : Nat) (w : Await) (stage : j.stage = .calling t w)
      (respond : Responder) :
      Ends b (.answer j.id respond) j.action (w.finish (respond w.request) b.view).2
        (w.finish (respond w.request) b.view).1

/-- A job that got the gate in an event and ends in it had nothing to ask. -/
theorem Enters.ends (h : b.InStep s) {j : Job} {move : Gate.Event} (henters : b.Enters b' j move)
    (e : Event) (hend : (b'.enter j j.number).2 = .ended result) :
    b.Ends e j.action result (b'.enter j j.number).1.view := by
  rcases henters.inStep h with ⟨hstep, -, hphase⟩
  rw [enter_eq hstep.fits.gate hphase, henters.view_eq] at hend ⊢
  cases hbegin : j.action.begin b.view with
  | asking w => simp [hbegin] at hend
  | ended v outcome =>
      obtain rfl : outcome = result := by simpa [hbegin] using hend
      exact .done e henters v outcome hbegin

namespace InStep

/-- A call that ends in the event that starts it was over early or got the gate. -/
theorem ends_start (h : b.InStep s) {now : Nat}
    (hend : (b.step (.start now a)).2 = some (.ended result)) :
    b.Ends (.start now a) a result (b.step (.start now a)).1.view := by
  simp only [Board.step, Option.some.injEq] at hend ⊢
  cases hearly : a.early? b.view with
  | some outcome =>
      have hstart : b.start now a = (b, .ended outcome) := by
        simp [start, hearly]
      rw [hstart] at hend ⊢
      obtain rfl := Advance.ended.inj hend
      exact .early now a outcome hearly
  | none =>
      rcases h.start_cases now hearly with ⟨henters, -, hstart⟩ | ⟨-, hstart⟩
      · rw [hstart] at hend ⊢
        exact henters.ends h _ hend
      · simp [hstart] at hend

/-- A call that ends when it goes on has waited too long or got the gate. -/
theorem ends_resume (h : b.InStep s) {now id : Nat} {j : Job} (hjob : b.job? id = some j)
    (hend : (b.step (.resume now id)).2 = some (.ended result)) :
    b.Ends (.resume now id) j.action result (b.step (.resume now id)).1.view := by
  simp only [Board.step, Option.some.injEq] at hend ⊢
  rcases mem_of_job? hjob with ⟨hmem, rfl⟩
  rcases j with ⟨id, action, stage⟩
  cases stage with
  | calling t w => simp [resume, hjob] at hend
  | queued request =>
      rcases Gate.resume_cases b.gate now request with heq | ⟨-, -, heq⟩ | ⟨-, -, heq⟩
      · simp [resume, hjob, heq] at hend
      · have hgranted : (b.gate.step (.resume now request)).2 = .turned .granted := by
          rw [Gate.step, heq]
        have henters := Enters.turned now _ request hmem rfl hgranted
        have hresume : b.resume now id =
            Board.enter { b with gate := (b.gate.step (.resume now request)).1 }
              { id, action, stage := .queued request } request := by
          simp [resume, hjob, Gate.step, heq]
        rw [hresume] at hend ⊢
        exact henters.ends h _ hend
      · simp only [resume, hjob, heq, close] at hend ⊢
        obtain rfl := Advance.ended.inj hend
        exact .timedOut now _ hmem

/-- A call that ends when the backend answers shows the answer. -/
theorem ends_answer (h : b.InStep s) {id : Nat} {respond : Responder} {j : Job}
    (hjob : b.job? id = some j)
    (hend : (b.step (.answer id respond)).2 = some (.ended result)) :
    b.Ends (.answer id respond) j.action result (b.step (.answer id respond)).1.view := by
  simp only [Board.step, Option.some.injEq] at hend ⊢
  rcases mem_of_job? hjob with ⟨hmem, rfl⟩
  cases hstage : j.stage with
  | queued request =>
      rcases j with ⟨id, action, stage⟩
      obtain rfl : stage = .queued request := hstage
      simp [answer, hjob] at hend
  | calling t w =>
      rw [h.answer_eq hjob hstage respond] at hend ⊢
      obtain rfl := Advance.ended.inj hend
      exact .answered j hmem t w hstage respond

/-- A call that ends in an event ends in one of these ways. -/
theorem ends (h : b.InStep s) {e : Event} (hcaller : b.caller? e = some a)
    (hend : (b.step e).2 = some (.ended result)) : b.Ends e a result (b.step e).1.view := by
  cases e with
  | start now a' =>
      obtain rfl := Option.some.inj hcaller
      exact h.ends_start hend
  | resume now id =>
      rcases Option.map_eq_some_iff.1 hcaller with ⟨j, hjob, rfl⟩
      exact h.ends_resume hjob hend
  | answer id respond =>
      rcases Option.map_eq_some_iff.1 hcaller with ⟨j, hjob, rfl⟩
      exact h.ends_answer hjob hend
  | cancel id => simp [Board.step] at hend
  | outside e => simp [caller?] at hcaller

end InStep

/-! ## The editor is closed -/

/-- A save that is over before it asks for the gate finds the editor closed. -/
theorem View.Sound.closed_of_noteTarget {v : View} (h : v.Sound) (htarget : v.noteTarget = none) :
    v.noteEditor = none := by
  by_contra hopen
  rcases Option.ne_none_iff_exists'.1 hopen with ⟨editor, heditor⟩
  rcases h.editor editor heditor with ⟨c, awardee, hcell, hholder⟩
  simp [noteTarget, heditor, awardeeAt, hcell, hholder] at htarget

/-- A save that had nothing to ask has closed the editor, if there is an event. -/
theorem Action.closed_of_begin {text : String} {v v' : View} (hevent : v.eventId ≠ none)
    (hbegin : (saveNote text).begin v = .ended v' result) : v'.noteEditor = none := by
  rcases Option.ne_none_iff_exists'.1 hevent with ⟨event, hsome⟩
  simp only [begin, hsome] at hbegin
  split at hbegin
  · simp at hbegin
  · obtain ⟨rfl, -⟩ := Begun.ended.inj hbegin
    rfl

/-- The answer to a save closes the editor. -/
theorem Action.closed_of_finish {text : String} {u v : View} {w : Await}
    (hasks : (saveNote text).Asks u w) (answer : Except Error w.request.Answer) :
    (w.finish answer v).1.noteEditor = none := by
  cases hasks with
  | saveNote event awardee key text shown target => cases answer <;> rfl

/-- The editor is closed when a save ends. -/
theorem Ends.closed (h : b.InStep s) (ho : b.Orderly) {e : Event} {text : String} {v : View}
    (hends : b.Ends e (.saveNote text) result v) : v.noteEditor = none := by
  generalize ha : Action.saveNote text = a at hends
  cases hends with
  | early now a result early =>
      subst ha
      apply ho.view.closed_of_noteTarget
      simpa [Action.early?] using Option.isSome_iff_exists.2 ⟨_, early⟩
  | timedOut now j mem =>
      rw [← ha]
      rfl
  | done e enters v result begins =>
      have hevent := ho.eventId_ne_none enters (by rw [← ha]; rfl)
      rw [← ha] at begins
      exact Action.closed_of_begin hevent begins
  | answered j mem t w stage respond =>
      have hasks := Action.asks_of_begin (h.begun j mem t w stage)
      rw [← ha] at hasks
      exact Action.closed_of_finish hasks _

/-! ## What was saved -/

/-- A request that was made in a run was made in one of its events. -/
theorem mem_asked_iff {es : List Event} {id : Nat} {r : Request} :
    (id, r) ∈ b.asked es ↔ ∃ before e between, es = before ++ e :: between ∧
      ((b.run before).step e).2 = some (.asking id r) := by
  constructor
  · intro hmem
    induction es generalizing b with
    | nil => simp [asked] at hmem
    | cons e es ih =>
        rcases List.mem_append.1 hmem with hnow | hlater
        · exact ⟨[], e, es, rfl, asked?_eq_some_iff.1 (Option.mem_toList.1 hnow)⟩
        · rcases ih hlater with ⟨before, e', between, rfl, hreply⟩
          exact ⟨e :: before, e', between, rfl, hreply⟩
  · rintro ⟨before, e, between, rfl, hreply⟩
    rw [asked_append, asked, asked?_eq_some_iff.2 hreply]
    simp

/-- A request under way was made in an event of the run. -/
theorem IsNew.exists_asking (hnew : b.IsNew) {es : List Event} {id : Nat} {r : Request}
    (hrequest : (b.run es).request? id = some r) :
    ∃ before e between, es = before ++ e :: between ∧
      ((b.run before).step e).2 = some (.asking id r) := by
  have haccounted := hnew.accounted.run hnew.inStep es
  exact mem_asked_iff.1 (by simpa using haccounted.known id r hrequest)

/-- Notes that are saved are shown if there is something in them. -/
theorem shownNotes_some (saved : String) :
    shownNotes (some saved) = if saved = "" then none else some saved := by
  by_cases hsaved : saved = "" <;> simp [shownNotes, Option.filter, hsaved]

/-- What a cell shows when notes are shown in one. -/
theorem View.cell?_showNotes (v : View) (key other : CellKey) (notes : String) :
    (v.showNotes key notes).cell? other =
      if other = key then
        (v.cell? other).map fun c => { c with notes := shownNotes (some notes) }
      else v.cell? other :=
  Cells.find?_modify v.cells key other _

/-- A call that saves a note: what happened before it made its request and since, the request,
who answered it, and the editor and the cell under it when the request was made. -/
structure Save where
  before : List Event
  asks : Event
  between : List Event
  job : Nat
  event : UInt64
  awardee : UInt64
  respond : Responder
  editor : NoteEditor
  cell : Cell

/-- The request of a call that saves a text. -/
def Save.request (x : Save) (text : String) : Request :=
  .saveNotes x.event x.awardee (Text.trim text)

/-- A run and an event in which a call has saved a text, with the answer of the backend. -/
structure Save.Of (x : Save) (b : Board) (es : List Event) (e : Event) (text saved : String) :
    Prop where
  run : es = x.before ++ x.asks :: x.between
  asked : ((b.run x.before).step x.asks).2 = some (.asking x.job (x.request text))
  /-- The trimmed text was saved, and this is what the backend has answered. -/
  answered : e = .answer x.job x.respond ∧
    x.respond (.saveNotes x.event x.awardee (Text.trim text)) = .ok saved
  /-- The editor was open over the cell of the awardee. -/
  opened : (b.run x.before).view.noteEditor = some x.editor
  found : (b.run x.before).view.cell? x.editor.cell = some x.cell
  holder : x.cell.awardeeId = some x.awardee
  /-- Until the answer comes the call holds the gate, and the editor is over no other cell. -/
  held : ∀ mid rest, x.between = mid ++ rest →
    (b.run (x.before ++ x.asks :: mid)).request? x.job = some (x.request text) ∧
      (b.run (x.before ++ x.asks :: mid)).view.EditorAt x.editor.cell
  /-- The cell shows what was saved, and nothing else has changed in it. -/
  shown : ((b.run es).step e).1.view.cell? x.editor.cell =
    some { x.cell with notes := if saved = "" then none else some saved }
  /-- The other cells show what they showed. -/
  others : ∀ key, key ≠ x.editor.cell →
    ((b.run es).step e).1.view.cell? key = (b.run x.before).view.cell? key


/-! ### While the answer is awaited -/

/-- Nothing is shown anew when a job makes a request. -/
theorem Change.view_of_asking {reply : Option Advance} {moves : List Gate.Event}
    {x : Option Body} (c : b.Change b' reply moves x) {id : Nat} {r : Request}
    (hreply : reply = some (.asking id r)) : b'.view = b.view := by
  cases c with
  | idle reply moves still told quiet => rfl
  | outside e strange => rfl
  | queued now a early => rfl
  | gone j mem e about v reply fate =>
      rcases fate with ⟨-, hgate⟩ | ⟨-, hnone⟩
      · simp [hgate] at hreply
      · simp [hnone] at hreply
  | asking enters w begins => exact enters.view_eq
  | done enters v result begins => simp at hreply
  | answered j mem w stage respond => simp at hreply

namespace InStep

/-- While a job waits for the backend, the board shows what it showed when the job began to
wait, and the editor is not moved. -/
theorem kept_of_calling (h : b.InStep s) {j : Job} (hj : j ∈ b.jobs) {t : Nat} {w : Await}
    (hstage : j.stage = .calling t w) {more : List Event}
    (hpending : ((b.run more).request? j.id).isSome) :
    (b.run more).view.Alike b.view ∧
      ∀ key, b.view.EditorAt key → (b.run more).view.EditorAt key := by
  rcases exists_calling_of_request? hpending with ⟨k, hk, hid, -⟩
  have hbodies := h.bodies_eq_nil hj hstage fun hover => hover.2 k hk hid
  have hmore := h.run more
  rw [hbodies] at hmore
  refine ⟨hmore.follows.alike.trans h.follows.alike.symm, fun key hat => ?_⟩
  have hlast := h.editorAt_run hat more
  rwa [hbodies] at hlast

/-- What a job has saved is shown in the cell that it was saved for, and in no other. -/
theorem cell?_of_saved (h : b.InStep s) {j : Job} (hj : j ∈ b.jobs) {t : Nat}
    {event awardee : UInt64} {text saved : String} {key : CellKey}
    (hstage : j.stage = .calling t (.saved event awardee text key)) {more : List Event}
    (hpending : ((b.run more).request? j.id).isSome) {respond : Responder}
    (hanswer : respond (.saveNotes event awardee text) = .ok saved) (other : CellKey) :
    ((b.run more).step (.answer j.id respond)).1.view.cell? other =
      if other = key then
        (b.view.cell? other).map fun c => { c with notes := shownNotes (some saved) }
      else b.view.cell? other := by
  have hview := h.view_answer hj hstage hpending respond
  simp only [Await.finish, hanswer] at hview
  have hclosed : (b.run more).view.closeEditor.cell? other = b.view.cell? other :=
    ((View.alike_closeEditor _).cell?_eq other).trans
      ((h.kept_of_calling hj hstage hpending).1.cell?_eq other)
  rw [hview, View.cell?_showNotes, hclosed]

end InStep

/-- A request that is under way at the end of a run was so ever since it was made. -/
theorem IsNew.request?_between (hnew : b.IsNew) {before mid rest : List Event} {e : Event}
    {id : Nat} {r : Request} (hasked : ((b.run before).step e).2 = some (.asking id r))
    (hrequest : ((b.run (before ++ e :: (mid ++ rest))).request? id).isSome) :
    (b.run (before ++ e :: mid)).request? id = some r := by
  have haccounted := hnew.accounted.run hnew.inStep (before ++ e :: mid)
  have hmem : (id, r) ∈ b.asked (before ++ e :: mid) :=
    mem_asked_iff.2 ⟨before, e, mid, rfl, hasked⟩
  refine (haccounted.spent (id, r) (by simpa using hmem)).resolve_right fun hover => ?_
  have hlater := (hnew.inStep.run (before ++ e :: mid)).isOver_run hover rest
  rw [← run_append, List.append_assoc] at hlater
  rcases exists_calling_of_request? hrequest with ⟨k, hk, hid, -⟩
  exact hlater.2 k hk hid

/-- A save whose request was made in a run, is under way, and is answered well. -/
theorem IsNew.exists_save (hnew : b.IsNew) {before between : List Event} {asks : Event} {id : Nat}
    {event awardee : UInt64} {text saved : String} {respond : Responder}
    (hasked : ((b.run before).step asks).2 =
      some (.asking id (.saveNotes event awardee (Text.trim text))))
    (hrequest : ((b.run (before ++ asks :: between)).request? id).isSome)
    (hanswer : respond (.saveNotes event awardee (Text.trim text)) = .ok saved) :
    ∃ x : Save, x.Of b (before ++ asks :: between) (.answer id respond) text saved := by
  have h := hnew.inStep.run before
  have hnext := h.step asks
  have hsplit : ∀ more, b.run (before ++ asks :: more) = ((b.run before).step asks).1.run more := by
    intro more
    rw [run_append]
    rfl
  have hview := (h.change asks).view_of_asking hasked
  rcases (h.change asks).of_asking h hasked with ⟨j, hj, rfl, w, ⟨t, hstage⟩, hbegin, hr⟩
  have hasks := Action.asks_of_begin hbegin
  generalize j.action = a at hasks
  cases hasks with
  | refresh event' shown => cases hr
  | toggle event' awardee' key c shown hcell holder => cases hr
  | openNote event' awardee' key shown holder => cases hr
  | saveNote event' awardee' key text' shown target =>
      obtain ⟨rfl, rfl, htext⟩ := Request.saveNotes.inj hr
      rcases View.noteTarget_eq_some_iff.1 target with ⟨⟨editor, heditor, rfl⟩, hholder⟩
      rcases View.awardeeAt_eq_some_iff.1 hholder with ⟨c, hcell, hc⟩
      have hat : ((b.run before).step asks).1.view.EditorAt editor.cell := by
        intro e he
        rw [hview, heditor] at he
        rw [Option.some.inj he]
      have hlast := hrequest
      rw [hsplit] at hlast
      have hcells := hnext.cell?_of_saved hj hstage hlast (htext ▸ hanswer)
      rw [hview, ← hsplit] at hcells
      refine ⟨⟨before, asks, between, j.id, event, awardee, respond, editor, c⟩, rfl, hasked,
        ⟨rfl, hanswer⟩, heditor, hcell, hc, ?_, ?_, ?_⟩
      · rintro mid rest rfl
        have hheld := hnew.request?_between hasked hrequest
        refine ⟨hheld, ?_⟩
        have hmid : ((((b.run before).step asks).1.run mid).request? j.id).isSome := by
          rw [← hsplit, hheld]
          rfl
        rw [hsplit]
        exact (hnext.kept_of_calling hj hstage hmid).2 _ hat
      · rw [hcells, if_pos rfl, hcell, Option.map_some, shownNotes_some]
      · intro key hne
        rw [hcells, if_neg hne]

/-- A call that saves a note ends well only if the backend has saved the trimmed text for the
awardee under the editor; what the backend has answered is shown there. -/
theorem Ends.saved (hnew : b.IsNew) {es : List Event} {e : Event} {text : String} {o : Outcome}
    (hends : (b.run es).Ends e (.saveNote text) (.ok o) ((b.run es).step e).1.view) :
    ∃ (x : Save) (saved : String), o = .saved saved ∧ x.Of b es e text saved := by
  have h := hnew.inStep.run es
  generalize hview : ((b.run es).step e).1.view = v at hends
  generalize ha : Action.saveNote text = a at hends
  generalize hr : (Except.ok o : Except Error Outcome) = result at hends
  cases hends with
  | early now a result early =>
      rw [← ha, ← hr] at early
      simp [Action.early?] at early
  | timedOut now j mem => cases hr
  | done e enters v result begins =>
      rw [← ha, ← hr] at begins
      rcases Action.begin_ended_cases begins with ⟨event, hselect, -⟩ | ⟨-, -⟩
      · cases hselect
      · simp only [Action.begin] at begins
        repeat' split at begins
        all_goals simp at begins
  | answered j mem t w stage respond =>
      have hasks := Action.asks_of_begin (h.begun j mem t w stage)
      rw [← ha] at hasks
      cases hasks with
      | saveNote event awardee key _ shown target =>
          cases hanswer : respond (.saveNotes event awardee (Text.trim text)) with
          | error err => simp [Await.finish, hanswer] at hr
          | ok saved =>
              obtain rfl : o = .saved saved := by simpa [Await.finish, hanswer] using hr
              -- The request was made in an earlier event, for the cell under the editor then.
              have hrequest := h.fits.request?_eq mem stage
              rcases hnew.exists_asking hrequest with ⟨before, asks, between, rfl, hasked⟩
              have hpending : ((b.run (before ++ asks :: between)).request? j.id).isSome := by
                rw [hrequest]
                rfl
              rcases hnew.exists_save hasked hpending hanswer with ⟨x, hx⟩
              exact ⟨x, saved, rfl, hx⟩

/-- When a call that saves a note ends, the editor is closed, whatever the result; and when it
ends well, then the trimmed text was saved for the awardee of the cell that the editor was over
while the call held the gate, and what the backend has answered is shown in that cell. -/
theorem save_closes_editor (hnew : b.IsNew) (es : List Event) {e : Event} {text : String}
    (hcaller : (b.run es).caller? e = some (.saveNote text))
    (hend : ((b.run es).step e).2 = some (.ended result)) :
    ((b.run es).step e).1.view.noteEditor = none ∧
      ∀ o, result = .ok o →
        ∃ (x : Save) (saved : String), o = .saved saved ∧ x.Of b es e text saved := by
  have h := hnew.inStep.run es
  have ho := hnew.orderly.run hnew.inStep es
  have hends := h.ends hcaller hend
  refine ⟨hends.closed h ho, ?_⟩
  rintro o rfl
  exact hends.saved hnew

/-- Two calls save a note at the same time; the second one waits too long for the gate, and
closes the editor while the first one still waits for the backend. -/
def savingTwice : List Event :=
  [.start 0 (.selectEvent 1), .start 0 .refresh, .answer 1 shortAnswers,
    .start 0 (.openNote ⟨101, 1⟩), .answer 2 shortAnswers, .start 0 (.saveNote " kept "),
    .start 0 (.saveNote "late"), .resume 10000 4]

/-- A board that nothing was done with. -/
def unused : Board :=
  { gate := { name := "awards", options := {} } }

/-- The first of two calls saves its note, although the second one has closed the editor. -/
theorem save_closes_editor_twice :
    (unused.run savingTwice).caller? (.answer 3 (answeringAll {} "kept")) =
        some (.saveNote " kept ") ∧
      ((unused.run savingTwice).step (.answer 3 (answeringAll {} "kept"))).2 =
        some (.ended (.ok (.saved "kept"))) ∧
      ((unused.run savingTwice).step (.answer 3 (answeringAll {} "kept"))).1.view.noteEditor =
        none ∧
      ∃ x : Save, x.Of unused savingTwice (.answer 3 (answeringAll {} "kept")) " kept " "kept" := by
  have hcaller : (unused.run savingTwice).caller? (.answer 3 (answeringAll {} "kept")) =
      some (.saveNote " kept ") := by
    decide +kernel
  have hend : ((unused.run savingTwice).step (.answer 3 (answeringAll {} "kept"))).2 =
      some (.ended (.ok (.saved "kept"))) := by
    decide +kernel
  rcases save_closes_editor (.plain "awards" {}) savingTwice hcaller hend with ⟨hclosed, hsaved⟩
  rcases hsaved _ rfl with ⟨x, saved, heq, hx⟩
  obtain rfl := Outcome.saved.inj heq
  exact ⟨hcaller, hend, hclosed, x, hx⟩

/-! ## Saves that could not have the gate -/

/-- No run takes back the number of a job. -/
theorem InStep.started_le_run (h : b.InStep s) (es : List Event) :
    b.started ≤ (b.run es).started := by
  induction es generalizing b s with
  | nil => exact Nat.le_refl _
  | cons e es ih => exact Nat.le_trans (h.change e).started_le (ih (h.step e))

/-- A call whose action was started goes on with it until it ends. -/
theorem InStep.caller_of_started (h : b.InStep s) {now : Nat} (hearly : a.early? b.view = none)
    {between : List Event} {e : Event}
    (hcall : (b.run (.start now a :: between)).callNumber? e = some b.started)
    (hend : ((b.run (.start now a :: between)).step e).2 = some (.ended result)) :
    (b.run (.start now a :: between)).caller? e = some a := by
  rcases h.action_start now hearly with ⟨hlt, hjob⟩
  have hnext := h.step (.start now a)
  have haction := hnext.action_run hlt hjob between
  have hthere : ∀ job, job = b.started →
      (∃ j, (b.run (.start now a :: between)).job? job = some j) →
        ((b.run (.start now a :: between)).job? job).map Job.action = some a := by
    rintro job rfl ⟨j, hj⟩
    rcases mem_of_job? hj with ⟨hmem, hid⟩
    rw [hj, Option.map_some, haction j hmem hid]
  cases e with
  | start now' a' =>
      have hle := hnext.started_le_run between
      have heq : (b.run (.start now a :: between)).started = b.started := by
        simpa [callNumber?] using hcall
      rw [run_cons] at heq
      omega
  | resume now' job =>
      have hid : job = b.started := by simpa [callNumber?] using hcall
      have hended : ((b.run (.start now a :: between)).resume now' job).2 = .ended result := by
        simpa [Board.step] using hend
      rcases queued_of_resume hended with ⟨j, -, hj, -⟩
      exact hthere job hid ⟨j, hj⟩
  | answer job respond =>
      have hid : job = b.started := by simpa [callNumber?] using hcall
      refine hthere job hid (Option.ne_none_iff_exists'.1 fun hnone => ?_)
      generalize b.run (.start now a :: between) = c at hnone hend
      simp [Board.step, answer, hnone] at hend
  | cancel job => simp [Board.step] at hend
  | outside e => simp [callNumber?] at hcall

/-- A save that ends in an error of the gate closes the editor and does nothing else. -/
theorem Ends.view_of_gateError (h : b.InStep s) {e : Event} {text : String} {v : View}
    {err : Gate.Error} (hends : b.Ends e (.saveNote text) (.error (.gate err)) v) :
    v = b.view.closeEditor := by
  generalize ha : Action.saveNote text = a at hends
  generalize hr : (Except.error (.gate err) : Except Error Outcome) = result at hends
  cases hends with
  | early now a result early =>
      rw [← ha, ← hr] at early
      simp [Action.early?] at early
  | timedOut now j mem =>
      rw [← ha]
      rfl
  | done e enters v result begins =>
      rcases Action.begin_ended_cases begins with ⟨event, -, hok⟩ | ⟨-, hnot⟩
      · rw [hok] at hr
        cases hr
      · exact absurd hr.symm (hnot err)
  | answered j mem t w stage respond =>
      have hasks := Action.asks_of_begin (h.begun j mem t w stage)
      rw [← ha] at hasks
      cases hasks with
      | saveNote event awardee key _ shown target =>
          cases hanswer : respond (.saveNotes event awardee (Text.trim text)) with
          | error e => simp [Await.finish]
          | ok saved => simp [Await.finish, hanswer] at hr

/-- Where the editor was opened last, if not where it was, a body has opened it. -/
theorem exists_opened_of_lastOpened_ne {key : CellKey} {xs : List Body}
    (hne : lastOpened key xs ≠ key) : ∃ x ∈ xs, x.opened? = some (lastOpened key xs) := by
  induction xs generalizing key with
  | nil => exact absurd rfl hne
  | cons x xs ih =>
      have hcons : lastOpened key (x :: xs) = lastOpened (x.opened?.getD key) xs := rfl
      rw [hcons] at hne ⊢
      by_cases hlater : lastOpened (x.opened?.getD key) xs = x.opened?.getD key
      · rw [hlater] at hne ⊢
        cases hopened : x.opened? with
        | none => simp [hopened] at hne
        | some cell => exact ⟨x, List.mem_cons_self, hopened⟩
      · rcases ih hlater with ⟨y, hy, hopened⟩
        exact ⟨y, List.mem_cons_of_mem x hy, hopened⟩

/-- At the end of a run the editor is open over another cell than a given one, and a call has
opened it there in the run. -/
def OpenedElsewhere (b : Board) (es : List Event) (cell : CellKey) (editor : NoteEditor) : Prop :=
  (b.run es).view.noteEditor = some editor ∧ editor.cell ≠ cell ∧
    ∃ x ∈ b.bodies es, x.opened? = some editor.cell

/-- A save that was called while the editor was open over a cell, and ends because it could not
have the gate, closes the editor as every save does, over whatever cell it is by then, and does
nothing else.  So it leaves an editor that was opened over another cell since the call as it is
only if there is none: if the editor has been closed already, or was opened last over the cell
of the call. -/
theorem failed_save_closes_any (hnew : b.IsNew) (es : List Event) {own : NoteEditor}
    (hopen : (b.run es).view.noteEditor = some own) {now : Nat} {text : String}
    {between : List Event} {e : Event} {err : Gate.Error}
    (hcall : ((b.run es).run (.start now (.saveNote text) :: between)).callNumber? e =
      some (b.run es).started)
    (hend : (((b.run es).run (.start now (.saveNote text) :: between)).step e).2 =
      some (.ended (.error (.gate err)))) :
    let since := Event.start now (.saveNote text) :: between
    let before := ((b.run es).run since).view
    let after := (((b.run es).run since).step e).1.view
    after = before.closeEditor ∧ after.noteEditor = none ∧
      ((∀ editor, (b.run es).OpenedElsewhere since own.cell editor →
          after.noteEditor = some editor) ↔
        before.noteEditor = none ∨
          lastOpened own.cell ((b.run es).bodies since) = own.cell) := by
  intro since before after
  have h := hnew.inStep.run es
  have hsound := (hnew.orderly.run hnew.inStep es).view
  have hearly : (Action.saveNote text).early? (b.run es).view = none := by
    rcases hsound.editor own hopen with ⟨c, awardee, hcell, hholder⟩
    simp [Action.early?, View.noteTarget, View.awardeeAt, hopen, hcell, hholder]
  have hcaller := h.caller_of_started hearly hcall hend
  have hlater := h.run since
  have hafter : after = before.closeEditor := (hlater.ends hcaller hend).view_of_gateError hlater
  have hat : before.EditorAt (lastOpened own.cell ((b.run es).bodies since)) := by
    refine h.editorAt_run (fun editor heditor => ?_) since
    rw [hopen] at heditor
    rw [Option.some.inj heditor]
  have hclosed : after.noteEditor = none := by
    rw [hafter]
    rfl
  refine ⟨hafter, hclosed, fun hspares => ?_, fun hgone editor helsewhere => ?_⟩
  · by_contra hnot
    obtain ⟨hopened, hmoved⟩ := not_or.1 hnot
    rcases Option.ne_none_iff_exists'.1 hopened with ⟨editor, heditor⟩
    have hcell := hat editor heditor
    rcases exists_opened_of_lastOpened_ne hmoved with ⟨x, hx, hxopened⟩
    have hleft := hspares editor ⟨heditor, hcell ▸ hmoved, x, hx, hcell ▸ hxopened⟩
    cases hclosed.symm.trans hleft
  · rcases helsewhere with ⟨heditor, hne, -⟩
    rcases hgone with hnone | hback
    · rw [show ((b.run es).run since).view.noteEditor = none from hnone] at heditor
      cases heditor
    · exact absurd ((hat editor heditor).trans hback) hne

/-- A call that saves a note waits for the gate behind two others: one opens the editor over
another cell, and one keeps the gate. -/
def waitingBehindTwo : List Event :=
  openingBoth ++ [.outside (.acquire 0)]

/-- A board on which a note is to be saved while the editor is over the first place and somebody
else will keep the gate. -/
def callingBehindTwo : Board :=
  unused.run waitingBehindTwo

/-- Since the call the editor has been opened over the second place. -/
def openedSince : List Event :=
  [.start 0 (.saveNote "for Ada"), .outside (.drop 4), .resume 0 3, .answer 3 shortAnswers]

/-- The save waits too long, and by then the editor over the second place is the one to close. -/
theorem failed_save_closes_second :
    let before := (callingBehindTwo.run openedSince).view
    let after := ((callingBehindTwo.run openedSince).step (.resume 10000 4)).1.view
    callingBehindTwo.view.noteEditor = some { cell := ⟨101, 1⟩, text := "" } ∧
      ((callingBehindTwo.run openedSince).step (.resume 10000 4)).2 =
        some (.ended (.error (.gate (.timeout "awards" (.ofMillis 10000))))) ∧
      before.noteEditor = some { cell := ⟨101, 2⟩, text := "" } ∧ after = before.closeEditor := by
  have hopen : callingBehindTwo.view.noteEditor = some { cell := ⟨101, 1⟩, text := "" } := by
    decide +kernel
  have hcall : (callingBehindTwo.run openedSince).callNumber? (.resume 10000 4) =
      some callingBehindTwo.started := by
    decide +kernel
  have hend : ((callingBehindTwo.run openedSince).step (.resume 10000 4)).2 =
      some (.ended (.error (.gate (.timeout "awards" (.ofMillis 10000))))) := by
    decide +kernel
  have hother : (callingBehindTwo.run openedSince).view.noteEditor =
      some { cell := ⟨101, 2⟩, text := "" } := by
    decide +kernel
  have hclosed := failed_save_closes_any (.plain "awards" {}) waitingBehindTwo hopen hcall hend
  exact ⟨hopen, hend, hother, hclosed.1⟩

/-- The editor that is closed was opened by another call, over another cell, after the save was
called. -/
theorem editor_of_another_closed :
    callingBehindTwo.view.noteEditor = some { cell := ⟨101, 1⟩, text := "" } ∧
      (callingBehindTwo.run openedSince).callNumber? (.resume 10000 4) =
        some callingBehindTwo.started ∧
      ((callingBehindTwo.run openedSince).step (.resume 10000 4)).2 =
        some (.ended (.error (.gate (.timeout "awards" (.ofMillis 10000))))) ∧
      (callingBehindTwo.run openedSince).view.noteEditor =
        some { cell := ⟨101, 2⟩, text := "" } ∧
      ¬ ∀ editor, callingBehindTwo.OpenedElsewhere openedSince ⟨101, 1⟩ editor →
        ((callingBehindTwo.run openedSince).step (.resume 10000 4)).1.view.noteEditor =
          some editor := by
  have hother : (callingBehindTwo.run openedSince).view.noteEditor =
      some { cell := ⟨101, 2⟩, text := "" } := by
    decide +kernel
  have hlast : lastOpened ⟨101, 1⟩ (callingBehindTwo.bodies openedSince) = ⟨101, 2⟩ := by
    decide +kernel
  have hclosed : ((callingBehindTwo.run openedSince).step (.resume 10000 4)).1.view.noteEditor =
      none := by
    decide +kernel
  refine ⟨by decide +kernel, by decide +kernel, by decide +kernel, hother, fun hall => ?_⟩
  have hmoved : lastOpened ⟨101, 1⟩ (callingBehindTwo.bodies openedSince) ≠ ⟨101, 1⟩ := by
    rw [hlast]
    decide
  rcases exists_opened_of_lastOpened_ne hmoved with ⟨x, hx, hopened⟩
  have hleft := hall _ ⟨hother, by decide, x, hx, hlast ▸ hopened⟩
  cases hclosed.symm.trans hleft

end Board
end AwardsDesk
