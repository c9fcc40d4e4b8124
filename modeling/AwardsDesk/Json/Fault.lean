/-!
# Faults of documents

Why a document, or a value in it, was not accepted.
-/

namespace AwardsDesk
namespace Json

/-- What is wrong with a document. -/
inductive Fault where
  /-- It is no document at all. -/
  | malformed
  /-- A value is of another type than expected. -/
  | invalidType
  /-- A number is out of range. -/
  | invalidValue
  /-- A list has too few or too many entries. -/
  | invalidLength
  /-- A member that has to be there is not. -/
  | missingField (name : String)
  /-- A member is there twice. -/
  | duplicateField (name : String)
deriving DecidableEq, Repr

/-- The fault in words. -/
def Fault.message : Fault → String
  | malformed => "syntax"
  | invalidType => "invalid type"
  | invalidValue => "invalid value"
  | invalidLength => "invalid length"
  | missingField name => "missing field `" ++ name ++ "`"
  | duplicateField name => "duplicate field `" ++ name ++ "`"

end Json
end AwardsDesk
