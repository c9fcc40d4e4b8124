import AwardsDesk.Board.Error
import AwardsDesk.Gate.Document

/-!
# Board configuration

The settings of an awards board: the event it starts with, the time between
refreshes, and the name and options of its gate.
-/

namespace AwardsDesk
namespace Board

open Json

/-- Name of the gate of a board for which none is given. -/
def defaultGateName : String := "awards-table-update"

/-- Seconds between refreshes where none are given. -/
def defaultPollPeriodSecs : UInt64 := 5

/-- The settings of a board. -/
structure Config where
  eventId : Option UInt64 := none
  pollPeriodSecs : UInt64 := defaultPollPeriodSecs
  gateName : String := defaultGateName
  gate : Gate.Options := {}
deriving DecidableEq, Repr, Inhabited

namespace Config

/-- The time between refreshes. -/
def pollPeriod (c : Config) : Span :=
  Span.ofSeconds c.pollPeriodSecs

/-- Accepts usable settings and names the first fault of others. -/
def validate (c : Config) : Except Board.Error Unit :=
  if c.pollPeriodSecs = 0 then .error (.config .zeroPeriod)
  else if c.gateName = "" then .error (.config .emptyGateName)
  else c.gate.validate.mapError fun e => .config (.gate e)

/-- The settings by name. -/
def settings : List (Setting Config) :=
  [ { name := "event_id"
      put := fun t c => (t.orNull Tree.uint64).map fun e => { c with eventId := e } },
    { name := "poll_period_secs"
      put := fun t c => t.uint64.map fun n => { c with pollPeriodSecs := n } },
    { name := "gate_name"
      put := fun t c => t.text.map fun s => { c with gateName := s } },
    { name := "gate"
      put := fun t c => (Gate.Options.ofTree t).map fun o => { c with gate := o } } ]

/-- Reads settings from a text, those not given being the default ones, and accepts
them only if they are usable. -/
def ofText (text : String) : Except Board.Error Config := do
  let c ← (Settings.ofText settings {} text).mapError fun fault => .config (.document fault)
  c.validate
  return c

/-- The settings as a value. -/
def toValue (c : Config) : Value :=
  .ofMembers
    [("event_id", c.eventId.elim .null fun e => .ofNat e.toNat),
      ("poll_period_secs", .ofNat c.pollPeriodSecs.toNat),
      ("gate_name", .str c.gateName), ("gate", c.gate.toValue)]

end Config
end Board
end AwardsDesk
