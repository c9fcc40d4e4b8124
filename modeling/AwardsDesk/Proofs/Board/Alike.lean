import AwardsDesk.Board.Action

/-!
# Views that show the same

The note editor is apart from the rest of a view: the event, the layout, the rows and the
cells do not depend on it, and a saved note that could not have the gate closes it without
holding the gate.  So views are compared without their editors, and a view may follow
another one with its editor closed early.

Main definitions:

- Structure {lit}`View.Alike`: two views are the same but for the note editor.
- Definition {lit}`View.Follows`: a view is another one, perhaps with the editor closed.
- Inductive type {lit}`Action.Asks`: what an action asks when it finds a view.

Main results:

- Theorems {lit}`Action.begin_ended_cases` and {lit}`Action.asks_of_begin`: all that the
  first half of an action can do.
- Theorems {lit}`Action.alike_of_begin` and {lit}`Await.alike_of_finish`: an action that
  ends in an error shows what was shown before.
- Theorems {lit}`View.Follows.begin_asking`, {lit}`View.Follows.begin_ended` and
  {lit}`View.Follows.finish`: the halves of an action do the same on a view that follows.
-/

namespace AwardsDesk
namespace Board

namespace View

/-! ## Views without their editors -/

/-- Two views are the same but for the note editor. -/
structure Alike (v w : View) : Prop where
  eventId : v.eventId = w.eventId
  divisionsRendered : v.divisionsRendered = w.divisionsRendered
  rows : v.rows = w.rows
  cells : v.cells = w.cells

namespace Alike

variable {v w x : View}

/-- A view is like itself. -/
theorem refl (v : View) : v.Alike v :=
  ⟨rfl, rfl, rfl, rfl⟩

/-- Equal views are alike. -/
theorem of_eq (h : v = w) : v.Alike w :=
  h ▸ refl v

/-- Being alike goes both ways. -/
theorem symm (h : v.Alike w) : w.Alike v :=
  ⟨h.eventId.symm, h.divisionsRendered.symm, h.rows.symm, h.cells.symm⟩

/-- Views like the same view are alike. -/
theorem trans (h : v.Alike w) (h' : w.Alike x) : v.Alike x :=
  ⟨h.eventId.trans h'.eventId, h.divisionsRendered.trans h'.divisionsRendered,
    h.rows.trans h'.rows, h.cells.trans h'.cells⟩

end Alike

/-- Closing the editor shows what was shown before. -/
theorem alike_closeEditor (v : View) : v.closeEditor.Alike v :=
  ⟨rfl, rfl, rfl, rfl⟩

/-- Awards are shown alike with the editor closed. -/
theorem fill_closeEditor (v : View) (awards : List Award) :
    v.closeEditor.fill awards = (v.fill awards).closeEditor := by
  unfold fill
  induction awards generalizing v with
  | nil => rfl
  | cons a awards ih =>
      rw [List.foldl_cons, List.foldl_cons, ← ih]
      rfl

end View

/-! ## The first half of an action -/

/-- An action that ends without a request selects an event, or leaves the view, perhaps with
the editor closed, and has not failed at the gate. -/
theorem Action.begin_ended_cases {a : Action} {v v' : View} {result : Except Error Outcome}
    (h : a.begin v = .ended v' result) :
    (∃ event, a = .selectEvent event ∧ result = .ok .done) ∨
      ((v' = v ∨ v' = v.closeEditor) ∧ ∀ e, result ≠ .error (.gate e)) := by
  cases a with
  | selectEvent event =>
      rcases Begun.ended.inj h with ⟨-, rfl⟩
      exact Or.inl ⟨event, rfl, rfl⟩
  | refresh =>
      simp only [begin] at h
      split at h
      · rcases Begun.ended.inj h with ⟨rfl, rfl⟩
        exact Or.inr ⟨Or.inl rfl, by simp⟩
      · simp at h
  | toggle key =>
      simp only [begin] at h
      repeat' split at h
      · rcases Begun.ended.inj h with ⟨rfl, rfl⟩
        exact Or.inr ⟨Or.inl rfl, by simp⟩
      · simp at h
      · rcases Begun.ended.inj h with ⟨rfl, rfl⟩
        exact Or.inr ⟨Or.inl rfl, by simp⟩
  | openNote key =>
      simp only [begin] at h
      repeat' split at h
      · rcases Begun.ended.inj h with ⟨rfl, rfl⟩
        exact Or.inr ⟨Or.inl rfl, by simp⟩
      · simp at h
      · rcases Begun.ended.inj h with ⟨rfl, rfl⟩
        exact Or.inr ⟨Or.inl rfl, by simp⟩
  | saveNote text =>
      simp only [begin] at h
      repeat' split at h
      · rcases Begun.ended.inj h with ⟨rfl, rfl⟩
        exact Or.inr ⟨Or.inl rfl, by simp⟩
      · simp at h
      · rcases Begun.ended.inj h with ⟨rfl, rfl⟩
        exact Or.inr ⟨Or.inr rfl, by simp⟩

/-- What an action asks the backend when it finds a view: a refresh asks for the awards of
the event, and for its divisions if they are not laid out yet, and the others ask for what
has to do with the holder of the award in a cell. -/
inductive Action.Asks (v : View) : Action → Await → Prop where
  | refresh (event : UInt64) (shown : v.eventId = some event) :
      Asks v .refresh (.awards event !v.divisionsRendered)
  | toggle (event awardee : UInt64) (key : CellKey) (c : Cell) (shown : v.eventId = some event)
      (cell : v.cell? key = some c) (holder : c.awardeeId = some awardee) :
      Asks v (.toggle key) (.status event awardee c.pickedUp key)
  | openNote (event awardee : UInt64) (key : CellKey) (shown : v.eventId = some event)
      (holder : v.awardeeAt key = some awardee) :
      Asks v (.openNote key) (.notes event awardee key)
  | saveNote (event awardee : UInt64) (key : CellKey) (text : String)
      (shown : v.eventId = some event) (target : v.noteTarget = some (key, awardee)) :
      Asks v (.saveNote text) (.saved event awardee (Text.trim text) key)

/-- An action asks for nothing else. -/
theorem Action.asks_of_begin {a : Action} {v : View} {w : Await} (h : a.begin v = .asking w) :
    a.Asks v w := by
  cases hevent : v.eventId with
  | none => cases a <;> simp [begin, hevent] at h
  | some event =>
      cases a with
      | selectEvent event => simp [begin] at h
      | refresh =>
          simp only [begin, hevent] at h
          obtain rfl := Begun.asking.inj h
          exact .refresh event hevent
      | toggle key =>
          simp only [begin, hevent] at h
          split at h
          · rename_i hcell
            obtain rfl := Begun.asking.inj h
            exact .toggle event _ key _ hevent hcell rfl
          · simp at h
      | openNote key =>
          simp only [begin, hevent] at h
          split at h
          · rename_i hholder
            obtain rfl := Begun.asking.inj h
            exact .openNote event _ key hevent hholder
          · simp at h
      | saveNote text =>
          simp only [begin, hevent] at h
          split at h
          · rename_i htarget
            obtain rfl := Begun.asking.inj h
            exact .saveNote event _ _ text hevent htarget
          · simp at h

/-- The first half of an action with the editor closed at its end. -/
def Begun.closeEditor : Begun → Begun
  | ended view result => ended view.closeEditor result
  | asking w => asking w

/-- Only an action that saves a note looks at the editor. -/
theorem Action.begin_closeEditor {a : Action} (ha : ¬∃ text, a = .saveNote text) (v : View) :
    a.begin v.closeEditor = (a.begin v).closeEditor := by
  rcases v with ⟨eventId, divisionsRendered, rows, cells, noteEditor⟩
  cases a with
  | selectEvent event => rfl
  | refresh => cases eventId <;> rfl
  | toggle key =>
      simp only [begin, View.closeEditor, View.cell?]
      cases eventId with
      | none => rfl
      | some event =>
          cases cells.find? key with
          | none => rfl
          | some c =>
              rcases c with ⟨divId, header, awardeeId, bib, name, pickedUp, prevPickedUp, notes⟩
              cases awardeeId <;> rfl
  | openNote key =>
      simp only [begin, View.closeEditor, View.awardeeAt, View.cell?]
      cases eventId with
      | none => rfl
      | some event => cases (cells.find? key).bind Cell.awardeeId <;> rfl
  | saveNote text => exact absurd ⟨text, rfl⟩ ha

/-- With the editor closed a note is not saved. -/
theorem Action.begin_saveNote_closeEditor (text : String) (v : View) :
    (saveNote text).begin v.closeEditor =
      .ended v.closeEditor (.error (if v.eventId = none then .noEvent else .noNoteOpen)) := by
  rcases v with ⟨eventId, divisionsRendered, rows, cells, noteEditor⟩
  cases eventId <;> rfl

/-! ## Actions without effect -/

/-- An action that could not have the gate shows what was shown before. -/
theorem Action.alike_afterGateError (a : Action) (v : View) : (a.afterGateError v).Alike v := by
  cases a with
  | saveNote text => exact v.alike_closeEditor
  | selectEvent event => exact .refl v
  | refresh => exact .refl v
  | toggle key => exact .refl v
  | openNote key => exact .refl v

/-- An action that ends in an error before it asks the backend shows what was shown
before. -/
theorem Action.alike_of_begin {a : Action} {v v' : View} {e : Error}
    (h : a.begin v = .ended v' (.error e)) : v'.Alike v := by
  rcases begin_ended_cases h with ⟨event, -, hresult⟩ | ⟨rfl | rfl, -⟩
  · simp at hresult
  · exact .refl _
  · exact v.alike_closeEditor

/-- An action that ends in an error of the backend shows what was shown before. -/
theorem Await.alike_of_finish {w : Await} {answer : Except Error w.request.Answer} {v : View}
    {e : Error} (h : (w.finish answer v).2 = .error e) : (w.finish answer v).1.Alike v := by
  cases w with
  | awards event needDivisions =>
      cases answer with
      | ok data => simp [finish] at h
      | error e => exact .refl v
  | status event awardee was key =>
      cases answer with
      | ok s => simp [finish] at h
      | error e => exact .refl v
  | notes event awardee key =>
      cases answer with
      | ok text => simp [finish] at h
      | error e => exact .refl v
  | saved event awardee text key =>
      cases answer with
      | ok saved => simp [finish] at h
      | error e => exact v.alike_closeEditor

/-- A backend that fails to save a note leaves the editor closed, whatever the error. -/
theorem Await.afterGateError_finish {a : Action} {w : Await} {s : View}
    (hbegin : a.begin s = .asking w) {answer : Except Error w.request.Answer} {v : View}
    {e : Error} (he : (w.finish answer v).2 = .error e) :
    a.afterGateError (w.finish answer v).1 = (w.finish answer v).1 := by
  cases Action.asks_of_begin hbegin with
  | refresh event shown => rfl
  | toggle event awardee key c shown cell holder => rfl
  | openNote event awardee key shown holder => rfl
  | saveNote event awardee key text shown target =>
      cases answer with
      | ok saved => simp [finish] at he
      | error e => rfl

/-! ## Views that follow -/

/-- A view is another one, perhaps with the note editor closed. -/
def View.Follows (v s : View) : Prop :=
  v = s ∨ v = s.closeEditor

namespace View.Follows

variable {v s : View}

/-- A view follows itself. -/
theorem refl (v : View) : v.Follows v :=
  Or.inl rfl

/-- A view that follows shows the same. -/
theorem alike (h : v.Follows s) : v.Alike s := by
  rcases h with rfl | rfl
  · exact .refl v
  · exact s.alike_closeEditor

/-- A view goes on following when its editor is closed. -/
theorem closeEditor (h : v.Follows s) : v.closeEditor.Follows s := by
  rcases h with rfl | rfl
  · exact Or.inr rfl
  · exact Or.inr rfl

/-- A view goes on following when an action could not have the gate. -/
theorem afterGateError (h : v.Follows s) (a : Action) : (a.afterGateError v).Follows s := by
  cases a with
  | saveNote text => exact h.closeEditor
  | selectEvent event => exact h
  | refresh => exact h
  | toggle key => exact h
  | openNote key => exact h

/-- What is asked on a view that follows is also asked on the other. -/
theorem begin_asking (h : v.Follows s) {a : Action} {w : Await} (hbegin : a.begin v = .asking w) :
    a.begin s = .asking w := by
  rcases h with rfl | rfl
  · exact hbegin
  · by_cases ha : ∃ text, a = .saveNote text
    · rcases ha with ⟨text, rfl⟩
      simp [Action.begin_saveNote_closeEditor] at hbegin
    · rw [Action.begin_closeEditor ha] at hbegin
      cases hs : a.begin s with
      | ended view result => simp [hs, Begun.closeEditor] at hbegin
      | asking w' => simpa [hs, Begun.closeEditor] using hbegin

/-- What ends on a view that follows without asking ends in the same way on the other one,
or it is a note to be saved that finds the editor closed. -/
theorem begin_ended (h : v.Follows s) {a : Action} {v' : View} {result : Except Error Outcome}
    (hbegin : a.begin v = .ended v' result) :
    (∃ s', a.begin s = .ended s' result ∧ v'.Follows s') ∨
      (result = .error .noNoteOpen ∧ v' = s.closeEditor ∧ ∃ text, a = .saveNote text) := by
  rcases h with rfl | rfl
  · exact Or.inl ⟨v', hbegin, .refl v'⟩
  · by_cases ha : ∃ text, a = .saveNote text
    · rcases ha with ⟨text, rfl⟩
      obtain ⟨rfl, rfl⟩ : s.closeEditor = v' ∧
          .error (if s.eventId = none then .noEvent else .noNoteOpen) = result := by
        simpa [Action.begin_saveNote_closeEditor] using hbegin
      cases hevent : s.eventId with
      | some event => exact Or.inr ⟨by simp, rfl, text, rfl⟩
      | none => exact Or.inl ⟨s, by simp [Action.begin, hevent], Or.inr rfl⟩
    · rw [Action.begin_closeEditor ha] at hbegin
      cases hs : a.begin s with
      | asking w => simp [hs, Begun.closeEditor] at hbegin
      | ended s' r =>
          obtain ⟨rfl, rfl⟩ : s'.closeEditor = v' ∧ r = result := by
            simpa [hs, Begun.closeEditor] using hbegin
          exact Or.inl ⟨s', rfl, Or.inr rfl⟩

/-- An answer does the same on a view that follows. -/
theorem finish (h : v.Follows s) (w : Await) (answer : Except Error w.request.Answer) :
    (w.finish answer v).1.Follows (w.finish answer s).1 ∧
      (w.finish answer v).2 = (w.finish answer s).2 := by
  rcases h with rfl | rfl
  · exact ⟨.refl _, rfl⟩
  · cases w with
    | awards event needDivisions =>
        cases answer with
        | error e => exact ⟨Or.inr rfl, rfl⟩
        | ok data =>
            refine ⟨Or.inr ?_, rfl⟩
            cases needDivisions with
            | false => exact View.fill_closeEditor _ _
            | true => exact View.fill_closeEditor (s.layOut _) _
    | status event awardee was key => cases answer <;> exact ⟨Or.inr rfl, rfl⟩
    | notes event awardee key =>
        cases answer with
        | error e => exact ⟨Or.inr rfl, rfl⟩
        | ok text => exact ⟨Or.inl rfl, rfl⟩
    | saved event awardee text key => cases answer <;> exact ⟨Or.inl rfl, rfl⟩

end View.Follows
end Board
end AwardsDesk
