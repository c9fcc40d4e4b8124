import AwardsDesk.Proofs.Board.Sound

/-!
# Where a note is saved

A note is saved in the cell that the note editor is open over when its turn at the gate
comes.  That is not always the cell that the editor was open over when the note was to be
saved: a call that was waiting for the gate may open the editor over another cell first, and
then the note is saved there.

Main definitions:

- Function {lit}`Board.lastOpened`: the cell over which bodies have opened the editor last.

Main results:

- Theorem {lit}`Board.InStep.editorAt_run`: the editor is open over the cell opened last.
- Theorem {lit}`Board.saved_at_last_opened`: a note is saved there, for the holder of that
  cell's award.
-/

namespace AwardsDesk
namespace Board

variable {b b' : Board} {s : View} {reply : Option Advance} {es : List Gate.Event}
  {x : Option Body}

/-! ## The editor -/

/-- The cell over which a body has opened the note editor. -/
def Body.opened? (x : Body) : Option CellKey :=
  match x.action, x.result with
  | .openNote key, .ok (.note (some _)) => some key
  | _, _ => none

/-- The cell over which bodies have opened the note editor last, or else a given one. -/
def lastOpened (key : CellKey) (xs : List Body) : CellKey :=
  xs.foldl (fun key x => x.opened?.getD key) key

/-- Bodies go on where others have opened the editor. -/
theorem lastOpened_append (key : CellKey) (xs more : List Body) :
    lastOpened key (xs ++ more) = lastOpened (lastOpened key xs) more := by
  simp [lastOpened]

/-- The note editor is over a cell, if it is open. -/
def View.EditorAt (v : View) (key : CellKey) : Prop :=
  ∀ e, v.noteEditor = some e → e.cell = key

namespace View.EditorAt

variable {v : View} {key : CellKey}

/-- An editor that is closed is not over another cell. -/
theorem of_closed (h : v.noteEditor = none) : v.EditorAt key := by
  intro e he
  rw [h] at he
  contradiction

/-- The editor stays where it is in a view that has the same. -/
theorem congr {v' : View} (h : v.EditorAt key) (hsame : v'.noteEditor = v.noteEditor) :
    v'.EditorAt key := by
  intro e he
  rw [hsame] at he
  exact h e he

/-- The editor does not move when an action could not have the gate. -/
theorem afterGateError (h : v.EditorAt key) (a : Action) : (a.afterGateError v).EditorAt key := by
  cases a with
  | saveNote text => exact of_closed rfl
  | selectEvent event => exact h
  | refresh => exact h
  | toggle key => exact h
  | openNote key => exact h

/-- The first half of an action does not move the editor, and opens it nowhere. -/
theorem begin_ended (h : v.EditorAt key) {y : Body} {v' : View}
    (hbegin : y.action.begin v = .ended v' y.result) :
    v'.EditorAt (y.opened?.getD key) := by
  have hnone : y.opened? = none := by
    rcases y with ⟨ticket, action, asked, result⟩
    cases action with
    | selectEvent event => rfl
    | refresh => rfl
    | toggle key => rfl
    | saveNote text => rfl
    | openNote cell =>
        simp only [Action.begin] at hbegin
        repeat' split at hbegin
        · rw [← (Begun.ended.inj hbegin).2]
          rfl
        · simp at hbegin
        · rw [← (Begun.ended.inj hbegin).2]
          rfl
  rw [hnone, Option.getD_none]
  rcases Action.begin_ended_cases hbegin with ⟨event, haction, -⟩ | ⟨rfl | rfl, -⟩
  · rw [haction] at hbegin
    rw [← (Begun.ended.inj hbegin).1]
    exact of_closed rfl
  · exact h
  · exact of_closed rfl

/-- The second half of an action moves the editor only to open it. -/
theorem finish (h : v.EditorAt key) {y : Body} {w : Await} {u : View}
    (hasks : y.action.Asks u w) {answer : Except Error w.request.Answer}
    (hresult : y.result = (w.finish answer v).2) :
    (w.finish answer v).1.EditorAt (y.opened?.getD key) := by
  rcases y with ⟨ticket, action, asked, result⟩
  obtain rfl : result = _ := hresult
  cases hasks with
  | refresh event shown =>
      cases answer with
      | error e => exact h
      | ok data =>
          refine h.congr ?_
          cases hneed : u.divisionsRendered <;>
            simp only [Await.finish, Bool.not_true, Bool.not_false] <;> rw [View.fill_eq] <;> rfl
  | toggle event awardee cell c shown hcell holder =>
      cases answer with
      | error e => exact h
      | ok state => exact h
  | openNote event awardee cell shown holder =>
      cases answer with
      | error e => exact h
      | ok text =>
          intro e he
          obtain rfl := Option.some.inj he
          rfl
  | saveNote event awardee cell text shown target =>
      cases answer with
      | error e => exact of_closed rfl
      | ok saved => exact of_closed rfl

end View.EditorAt

/-- An event moves the editor only if a body ends in it that opens it. -/
theorem Change.editorAt (h : b.InStep s) (c : b.Change b' reply es x) {key : CellKey}
    (hat : b.view.EditorAt key) : b'.view.EditorAt (lastOpened key x.toList) := by
  cases c with
  | idle reply es still told quiet => exact hat
  | outside e strange => exact hat
  | queued now a early => exact hat
  | gone j mem e about v reply fate =>
      rcases fate with ⟨rfl, -⟩ | ⟨rfl, -⟩
      · exact hat.afterGateError j.action
      · exact hat
  | asking enters w begins => exact hat.congr (congrArg View.noteEditor enters.view_eq)
  | done enters v result begins => exact hat.begin_ended begins
  | answered j mem w stage respond =>
      have hasks := Action.asks_of_begin (h.begun j mem _ w stage)
      exact hat.finish hasks rfl

/-- In every run the editor, if it is open, is over the cell that was opened last. -/
theorem InStep.editorAt_run (h : b.InStep s) {key : CellKey} (hat : b.view.EditorAt key)
    (es : List Event) : (b.run es).view.EditorAt (lastOpened key (b.bodies es)) := by
  induction es generalizing b s key with
  | nil => exact hat
  | cons e es ih =>
      have hnext := (h.change e).editorAt h hat
      rw [bodies, lastOpened_append]
      exact ih (h.step e) hnext

/-! ## The job of a call -/

/-- An action that needs the gate becomes a job with a number of its own. -/
theorem InStep.action_start (h : b.InStep s) (now : Nat) {a : Action}
    (hearly : a.early? b.view = none) :
    b.started < (b.step (.start now a)).1.started ∧
      ∀ j ∈ (b.step (.start now a)).1.jobs, j.id = b.started → j.action = a := by
  have hjobs : ∀ j ∈ (b.enroll now a).jobs, j.id = b.started → j.action = a := by
    intro j hj hid
    rcases List.mem_append.1 hj with hold | hnew
    · have hlt := h.fits.lt_started j hold
      omega
    · rw [List.mem_singleton.1 hnew]
      rfl
  simp only [Board.step]
  rcases h.start_cases now hearly with ⟨henters, -, hstart⟩ | ⟨-, hstart⟩
  · rcases henters.inStep h with ⟨hstep, -, hphase⟩
    rw [hstart, enter_eq hstep.fits.gate hphase]
    cases (b.newJob a).action.begin (b.enroll now a).view with
    | ended v result =>
        refine ⟨Nat.lt_succ_self _, fun j hj hid => ?_⟩
        exact hjobs j (List.mem_of_mem_eraseP hj) hid
    | asking w =>
        refine ⟨Nat.lt_succ_self _, fun k hk hid => ?_⟩
        rcases List.mem_map.1 hk with ⟨j, hj, rfl⟩
        have haction := hjobs j hj
        split at hid
        · rw [if_pos ‹_›]
          exact haction hid
        · rw [if_neg ‹_›]
          exact haction hid
  · rw [hstart]
    exact ⟨Nat.lt_succ_self _, hjobs⟩

/-- The answer to a request that is still under way is shown where the request says. -/
theorem InStep.view_answer (h : b.InStep s) {j : Job} (hj : j ∈ b.jobs) {t : Nat} {w : Await}
    (hstage : j.stage = .calling t w) {more : List Event}
    (hpending : ((b.run more).request? j.id).isSome) (respond : Responder) :
    ((b.run more).step (.answer j.id respond)).1.view =
      (w.finish (respond w.request) (b.run more).view).1 := by
  rcases job?_of_request? hpending with ⟨k, t', w', hjob, hcalling⟩
  rcases mem_of_job? hjob with ⟨hk, hid⟩
  have hover : ¬(b.run more).IsOver j.id := fun hover => hover.2 k hk hid
  have hlater := h.run more
  rw [h.bodies_eq_nil hj hstage hover] at hlater
  have haction : k.action = j.action := by
    refine h.action_run (h.fits.lt_started j hj) (fun i hi hsame => ?_) more k hk hid
    rw [List.inj_on_of_nodup_map h.fits.nodup hi hj hsame]
  have hbegin := h.begun j hj t w hstage
  have hbegin' : k.action.begin s = .asking w' := hlater.begun k hk t' w' hcalling
  rw [haction, hbegin] at hbegin'
  obtain rfl : w = w' := Begun.asking.inj hbegin'
  rw [← hid] at hjob ⊢
  simp only [Board.step]
  rw [hlater.answer_eq hjob hcalling respond]
  rfl

/-! ## Saving -/

/-- A note is to be saved while the editor is open.  If the call gets the gate and makes its
request, then this is for the holder of the award in the cell that was opened last by then,
and the note is shown in that cell: the cell that the editor was open over at the call, if
no call before it has opened another one. -/
theorem saved_at_last_opened (hnew : b.IsNew) (es : List Event) {editor : NoteEditor}
    (hopen : (b.run es).view.noteEditor = some editor) {now : Nat} {text : String}
    {before : List Event} {e : Event}
    (hcalled : (before ++ [e]).head? = some (.start now (.saveNote text))) {r : Request}
    (hasks : (((b.run es).run before).step e).2 = some (.asking (b.run es).started r)) :
    let v := ((b.run es).run before).view
    let cell := lastOpened editor.cell ((b.run es).bodies before)
    ∃ event awardee, r = .saveNotes event awardee (Text.trim text) ∧
      v.eventId = some event ∧ v.awardeeAt cell = some awardee ∧
      ∀ more respond saved,
        (((b.run es).run (before ++ e :: more)).request? (b.run es).started).isSome →
        respond (.saveNotes event awardee (Text.trim text)) = .ok saved →
        (((b.run es).run (before ++ e :: more)).step
            (.answer (b.run es).started respond)).1.view =
          ((b.run es).run (before ++ e :: more)).view.closeEditor.showNotes cell saved := by
  have h := hnew.inStep.run es
  have hsound := (hnew.orderly.run hnew.inStep es).view
  generalize b.run es = c at *
  intro v cell
  -- The call needs the gate, so it has become a job.
  rcases List.head?_eq_some_iff.1 hcalled with ⟨rest, hrest⟩
  have hearly : (Action.saveNote text).early? c.view = none := by
    rcases hsound.editor editor hopen with ⟨d, awardee, hcell, hholder⟩
    simp [Action.early?, View.noteTarget, View.awardeeAt, hopen, hcell, hholder]
  rcases h.action_start now hearly with ⟨hlt, hjob⟩
  have hbefore := h.run before
  rcases (hbefore.change e).of_asking hbefore hasks with
    ⟨j, hj, hid, w, ⟨t, hstage⟩, hbegin, hr⟩
  have haction : j.action = .saveNote text := by
    have hrun : (c.step (.start now (.saveNote text))).1.run rest = ((c.run before).step e).1 := by
      rw [← run_cons, ← hrest, run_append]
      rfl
    exact (h.step _).action_run hlt hjob rest j (hrun ▸ hj) hid
  rw [haction] at hbegin
  cases Action.asks_of_begin hbegin with
  | saveNote event awardee key text shown target =>
      -- The editor is open over the cell that was opened last, so the note is for that cell.
      rcases View.noteTarget_eq_some_iff.1 target with ⟨⟨e', he', hkey⟩, hholder⟩
      have hat : c.view.EditorAt editor.cell := by
        intro e he
        rw [hopen] at he
        rw [Option.some.inj he]
      have hcell : key = cell := hkey.symm.trans (h.editorAt_run hat before e' he')
      refine ⟨event, awardee, hr, shown, hcell ▸ hholder, ?_⟩
      intro more respond saved hpending hsaved
      have hmore : c.run (before ++ e :: more) = ((c.run before).step e).1.run more := by
        rw [run_append]
        rfl
      rw [hmore, ← hid] at hpending ⊢
      rw [(hbefore.step e).view_answer hj hstage hpending respond, ← hcell]
      simp only [Await.finish, hsaved]

/-! ## A note that is saved elsewhere -/

/-- A division with two places. -/
def shortDivision : Division where
  divId := 1
  rsuDivId := 101
  name := "Short"
  numAwards := 2

/-- The award at a place of {lit}`shortDivision`. -/
def shortAward (awardee : UInt64) (place : UInt32) : Award where
  awardeeId := awardee
  divId := 1
  rsuDivId := 101
  place := place
  name := "Ada"
  bib := "12"
  pickedUp := false
  prevPickedUp := false

/-- What a backend with {lit}`shortDivision` answers. -/
def shortAnswers : Responder :=
  answeringAll
    { divisions := some [[some shortDivision]], awards := [shortAward 7 1, shortAward 8 2] } ""

/-- The editor is opened over the first place; then somebody else takes the gate, and a call
waits for it that will open the editor over the second place. -/
def openingBoth : List Event :=
  [.start 0 (.selectEvent 1), .start 0 .refresh, .answer 1 shortAnswers,
    .start 0 (.openNote ⟨101, 1⟩), .answer 2 shortAnswers, .outside (.acquire 0),
    .start 0 (.openNote ⟨101, 2⟩)]

/-- A note is to be saved; the gate is given back, and the editor is opened over the second
place. -/
def savingBehind : List Event :=
  [.start 0 (.saveNote "for Ada"), .outside (.drop 4), .resume 0 3, .answer 3 shortAnswers]

/-- A board on which a note is to be saved while the editor is over the first place. -/
def callingFirst : Board :=
  Board.run { gate := { name := "awards", options := {} } } openingBoth

/-- A note that is to be saved while the editor is open over one cell is saved in another. -/
theorem saved_elsewhere :
    callingFirst.view.noteEditor = some { cell := ⟨101, 1⟩, text := "" } ∧
      callingFirst.view.awardeeAt ⟨101, 1⟩ = some 7 ∧
      ((callingFirst.run savingBehind).step (.resume 0 4)).2 =
        some (.asking callingFirst.started (.saveNotes 1 8 "for Ada")) ∧
      let asked := callingFirst.run (savingBehind ++ [.resume 0 4])
      (asked.step (.answer callingFirst.started shortAnswers)).1.view =
        asked.view.closeEditor.showNotes ⟨101, 2⟩ "for Ada" := by
  have hopen : callingFirst.view.noteEditor = some { cell := ⟨101, 1⟩, text := "" } := by
    decide +kernel
  have hfirst : callingFirst.view.awardeeAt ⟨101, 1⟩ = some 7 := by
    decide +kernel
  have hasks : ((callingFirst.run savingBehind).step (.resume 0 4)).2 =
      some (.asking callingFirst.started (.saveNotes 1 8 "for Ada")) := by
    decide +kernel
  have hcalled : (savingBehind ++ [Event.resume 0 4]).head? =
      some (.start 0 (.saveNote "for Ada")) := rfl
  have hlast : lastOpened ⟨101, 1⟩ (callingFirst.bodies savingBehind) = ⟨101, 2⟩ := by
    decide +kernel
  have hpending : ((callingFirst.run (savingBehind ++ [.resume 0 4])).request?
      callingFirst.started).isSome := by
    decide +kernel
  rcases saved_at_last_opened (.plain "awards" {}) openingBoth hopen hcalled hasks with
    ⟨event, awardee, hr, -, -, hsaved⟩
  obtain ⟨rfl, rfl, -⟩ := Request.saveNotes.inj hr
  have hview := hsaved [] shortAnswers "for Ada" hpending rfl
  rw [← hlast]
  exact ⟨hopen, hfirst, hasks, hview⟩

end Board
end AwardsDesk
