import AwardsDesk.Gate.Error
import AwardsDesk.Json.Fault

/-!
# Board errors

What can go wrong on an awards board, by cause, and the one function that puts each
cause into words.
-/

namespace AwardsDesk
namespace Board

/-- Why a response could not be used. -/
inductive DecodeFault where
  /-- The response has no data. -/
  | missingData
  /-- The response is no document of the expected form. -/
  | document (fault : Json.Fault)
  /-- A reason in words of the caller's own. -/
  | other (reason : String)
deriving DecidableEq, Repr

/-- The reason in words. -/
def DecodeFault.message : DecodeFault → String
  | missingData => "missing data member"
  | document fault => fault.message
  | other reason => reason

/-- Why a configuration was not accepted. -/
inductive ConfigFault where
  /-- The period between refreshes is zero. -/
  | zeroPeriod
  /-- The gate has no name. -/
  | emptyGateName
  /-- The gate cannot have its options. -/
  | gate (e : Gate.Error)
  /-- The document is not of the expected form. -/
  | document (fault : Json.Fault)
  /-- A reason in words of the caller's own. -/
  | other (reason : String)
deriving DecidableEq, Repr

/-- The reason in words. -/
def ConfigFault.message : ConfigFault → String
  | zeroPeriod => "poll_period_secs must be greater than zero"
  | emptyGateName => "gate_name must not be empty"
  | gate e => e.message
  | document fault => fault.message
  | other reason => reason

/-- A failed operation on a board. -/
inductive Error where
  /-- The board's gate could not be had. -/
  | gate (e : Gate.Error)
  /-- The backend reports a failure. -/
  | backend (reason : String)
  /-- A response could not be used. -/
  | decode (fault : DecodeFault)
  /-- The configuration was not accepted. -/
  | config (fault : ConfigFault)
  /-- A note was to be saved, but none is open. -/
  | noNoteOpen
  /-- No event is selected. -/
  | noEvent
deriving DecidableEq, Repr

namespace Error

/-- The error in words. -/
def message : Error → String
  | gate e => "gate error: " ++ e.message
  | backend reason => "backend error: " ++ reason
  | decode fault => "decode failed: " ++ fault.message
  | config fault => "invalid config: " ++ fault.message
  | noNoteOpen => "no note open"
  | noEvent => "no event selected"

/-- Whether the error is a timeout of the gate. -/
def isTimeout : Error → Bool
  | gate e => e.isTimeout
  | _ => false

/-- The gate error that a board error is due to. -/
def source : Error → Option Gate.Error
  | gate e => some e
  | _ => none

end Error
end Board
end AwardsDesk
