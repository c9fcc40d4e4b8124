import AwardsDesk.Awards.Payload
import AwardsDesk.Board.Error

/-!
# Responses

A response is a document.  Before anything else is read from it, a failure that it
reports is passed on.

Main definitions:

- Function {lit}`Response.envelope`: the value of a response that reports no failure.
- Functions {lit}`Response.awards`, {lit}`Response.pickup` and
  {lit}`Response.notes`: what the responses to the three kinds of request hold.
-/

namespace AwardsDesk
namespace Response

open Json Board

/-- The failure that a response reports: the text of its member `error`, or that of
its member `status` being `fail`. -/
def failure? (v : Value) : Option String :=
  match (v.member? "error").bind Value.text? with
  | some reason => some reason
  | none =>
    if (v.member? "status").bind Value.text? = some "fail" then some "request failed" else none

/-- The value of a response that reports no failure. -/
def envelope (body : String) : Except Board.Error Value :=
  match Value.ofText? body with
  | none => .error (.decode (.document .malformed))
  | some v =>
    match failure? v with
    | some reason => .error (.backend reason)
    | none => .ok v

/-- Reads a structure, a fault being one of the response. -/
def decode {α : Type} (s : Schema α) (v : Value) : Except Board.Error α :=
  (s.read v).mapError fun fault => .decode (.document fault)

/-- The awards of an event, in the member `data` of the response. -/
def awards (body : String) : Except Board.Error AwardsData := do
  let v ← envelope body
  match v.member? "data" with
  | some data => decode AwardsData.schema data
  | none => throw (.decode .missingData)

/-- The state of an award. -/
def pickup (body : String) : Except Board.Error PickupStatus := do
  decode PickupStatus.schema (← envelope body)

/-- The notes about an awardee. -/
def notes (body : String) : Except Board.Error String := do
  decode notesSchema (← envelope body)

end Response
end AwardsDesk
