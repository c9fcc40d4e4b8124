import AwardsDesk.Board.Error
import AwardsDesk.Board.View
import AwardsDesk.Text.Blank

/-!
# Actions on a board

What users and the periodic refresh do to a board.  While the board's gate is held an
action looks at the view, asks the backend at most one thing, and changes the view
by the answer.

Main definitions:

- Inductive type {lit}`Request`: what can be asked of a backend, and
  {lit}`Request.Answer`, what it answers.
- Inductive type {lit}`Action` with {lit}`Action.begin` and {lit}`Await.finish`, the two
  halves of an action.
- Function {lit}`Action.perform`: an action from beginning to end.
-/

namespace AwardsDesk
namespace Board

/-! ## Requests -/

/-- What can be asked of a backend. -/
inductive Request where
  /-- The awards of an event, and its divisions if they are needed. -/
  | fetchAwards (event : UInt64) (needDivisions : Bool)
  /-- The award of an awardee changes hands; the state last shown is told. -/
  | setPickedUp (event awardee : UInt64) (was : Bool)
  | fetchNotes (event awardee : UInt64)
  | saveNotes (event awardee : UInt64) (text : String)
deriving DecidableEq, Repr

/-- What a backend answers to a request. -/
abbrev Request.Answer : Request → Type
  | fetchAwards .. => AwardsData
  | setPickedUp .. => PickupStatus
  | fetchNotes .. => String
  | saveNotes .. => String

/-- A backend's answer to any request. -/
abbrev Responder := (r : Request) → Except Error r.Answer

/-! ## Actions -/

/-- What can be done to a board. -/
inductive Action where
  /-- Another event is shown; its divisions are laid out by the next refresh. -/
  | selectEvent (event : UInt64)
  /-- The view is brought up to date. -/
  | refresh
  /-- The award in a cell is handed out or taken back. -/
  | toggle (key : CellKey)
  /-- The note editor is opened over a cell. -/
  | openNote (key : CellKey)
  /-- Text is saved as the notes of the cell under the editor, which is closed. -/
  | saveNote (text : String)
deriving DecidableEq, Repr

/-- What an action brings. -/
inductive Outcome where
  | done
  | status (s : Option PickupStatus)
  | note (text : Option String)
  | saved (text : String)
deriving DecidableEq, Repr

/-- A request that an action has made, and where its answer will be shown. -/
inductive Await where
  | awards (event : UInt64) (needDivisions : Bool)
  | status (event awardee : UInt64) (was : Bool) (key : CellKey)
  | notes (event awardee : UInt64) (key : CellKey)
  | saved (event awardee : UInt64) (text : String) (key : CellKey)
deriving DecidableEq, Repr

/-- The request itself. -/
@[reducible]
def Await.request : Await → Request
  | awards event needDivisions => .fetchAwards event needDivisions
  | status event awardee was _ => .setPickedUp event awardee was
  | notes event awardee _ => .fetchNotes event awardee
  | saved event awardee text _ => .saveNotes event awardee text

/-- How far the first half of an action gets. -/
inductive Begun where
  | ended (view : View) (result : Except Error Outcome)
  | asking (await : Await)

namespace Action

/-- The result of an action that is over before the gate is asked for: there is no
award in the cell, or no note to be saved. -/
def early? (a : Action) (v : View) : Option (Except Error Outcome) :=
  match a with
  | toggle key => if (v.awardeeAt key).isNone then some (.ok (.status none)) else none
  | openNote key => if (v.awardeeAt key).isNone then some (.ok (.note none)) else none
  | saveNote _ => if v.noteTarget.isNone then some (.error .noNoteOpen) else none
  | _ => none

/-- The first half of an action, up to its request. -/
def begin (a : Action) (v : View) : Begun :=
  match a with
  | selectEvent event => .ended { eventId := some event } (.ok .done)
  | refresh =>
    match v.eventId with
    | none => .ended v (.error .noEvent)
    | some event => .asking (.awards event !v.divisionsRendered)
  | toggle key =>
    match v.eventId with
    | none => .ended v (.error .noEvent)
    | some event =>
      match v.cell? key with
      | some { awardeeId := some awardee, pickedUp, .. } =>
        .asking (.status event awardee pickedUp key)
      | _ => .ended v (.ok (.status none))
  | openNote key =>
    match v.eventId with
    | none => .ended v (.error .noEvent)
    | some event =>
      match v.awardeeAt key with
      | some awardee => .asking (.notes event awardee key)
      | none => .ended v (.ok (.note none))
  | saveNote text =>
    match v.eventId with
    | none => .ended v (.error .noEvent)
    | some event =>
      match v.noteTarget with
      | some (key, awardee) => .asking (.saved event awardee (Text.trim text) key)
      | none => .ended v.closeEditor (.error .noNoteOpen)

/-- The view when an action ended because the gate could not be had: the editor of a
note that was to be saved is closed. -/
def afterGateError (a : Action) (v : View) : View :=
  match a with
  | saveNote _ => v.closeEditor
  | _ => v

end Action

/-- The second half of an action: the answer is shown. -/
def Await.finish (w : Await) (answer : Except Error w.request.Answer) (v : View) :
    View × Except Error Outcome :=
  match w, answer with
  | .awards _ needDivisions, .ok (data : AwardsData) =>
    let v := if needDivisions then v.layOut (data.divisions.getD []) else v
    (v.fill data.awards, .ok .done)
  | .awards .., .error e => (v, .error e)
  | .status _ _ _ key, .ok (s : PickupStatus) => (v.showStatus key s, .ok (.status (some s)))
  | .status .., .error e => (v, .error e)
  | .notes _ _ key, .ok (text : String) => (v.openEditor key text, .ok (.note (some text)))
  | .notes .., .error e => (v, .error e)
  | .saved _ _ _ key, .ok (text : String) =>
    (v.closeEditor.showNotes key text, .ok (.saved text))
  | .saved .., .error e => (v.closeEditor, .error e)

/-- An action from beginning to end, with nothing in between. -/
def Action.perform (a : Action) (respond : Responder) (v : View) : View × Except Error Outcome :=
  match a.begin v with
  | .ended v result => (v, result)
  | .asking w => w.finish (respond w.request) v

end Board
end AwardsDesk
