import AwardsDesk.Gate.Options

/-!
# Gate errors

What can go wrong with a gate, by cause, and the one function that puts each
cause into words.
-/

namespace AwardsDesk
namespace Gate

/-- Why a ticket was refused. -/
inductive TicketFault where
  /-- Locked a second time. -/
  | alreadyLocked
  /-- Used after it was given back. -/
  | alreadyReleased
  /-- Unlocked before it was locked. -/
  | notLocked
  /-- Locked while another request owns the slot. -/
  | notCurrent
  /-- A reason in words of the caller's own. -/
  | other (reason : String)
deriving DecidableEq, Repr

/-- The reason in words. -/
def TicketFault.message : TicketFault → String
  | alreadyLocked => "already locked"
  | alreadyReleased => "ticket already released"
  | notLocked => "unlock without lock"
  | notCurrent => "ticket is not the current grant"
  | other reason => reason

/-- Why a gate could not be set up. -/
inductive OptionsFault where
  /-- The timeout is zero. -/
  | zeroTimeout
  /-- The manager has a gate of this name. -/
  | nameTaken (name : String)
  /-- A reason in words of the caller's own. -/
  | other (reason : String)
deriving DecidableEq, Repr

/-- The reason in words. -/
def OptionsFault.message : OptionsFault → String
  | zeroTimeout => "timeout_ms must be greater than zero"
  | nameTaken name => "gate '" ++ name ++ "' already registered"
  | other reason => reason

/-- A failed operation on a gate. -/
inductive Error where
  /-- The request was still queued when the gate's timeout had passed. -/
  | timeout (name : String) (waited : Span)
  /-- A ticket was used out of order. -/
  | invalidTicket (name : String) (fault : TicketFault)
  /-- The gate cannot have these options. -/
  | invalidOptions (fault : OptionsFault)
  /-- The state of the gate was left half changed. -/
  | poisoned (detail : String)
deriving DecidableEq, Repr

namespace Error

/-- The error in words. -/
def message : Error → String
  | timeout name waited =>
      "gate '" ++ name ++ "' not acquired within " ++ toString waited.wholeMillis ++ " ms"
  | invalidTicket name fault => "invalid ticket for gate '" ++ name ++ "': " ++ fault.message
  | invalidOptions fault => "invalid gate options: " ++ fault.message
  | poisoned detail => "gate state poisoned: " ++ detail

/-- Whether the error is a timeout, the one failure that a later try may mend. -/
def isTimeout : Error → Bool
  | timeout .. => true
  | _ => false

end Error

namespace Options

/-- Accepts usable options and names the fault of others. -/
def validate (o : Options) : Except Error Unit :=
  if o.Usable then .ok () else .error (.invalidOptions .zeroTimeout)

/-- Validation succeeds for usable options and for no others. -/
theorem validate_eq_ok_iff (o : Options) : o.validate = .ok () ↔ o.Usable := by
  unfold validate
  split <;> simp_all

end Options
end Gate
end AwardsDesk
