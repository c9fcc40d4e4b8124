import AwardsDesk.Json.Fault
import AwardsDesk.Json.Value

/-!
# Schemas

A schema says which fields a structure has, in order, and how each is read from a
value.  A structure is given either as a record, with its fields as members among
others, or as the list of its fields in order.

Of several faults in a record, the one in the member with the least key is
reported, and missing members only when the others are sound.  In a list the first
fault counts.

Main definitions:

- Structure {lit}`Schema`: fields and what they are put together to.
- Function {lit}`Schema.read`: reads a structure from a value.
-/

namespace AwardsDesk
namespace Json

/-! ## Reading single values -/

/-- Reads something from a value. -/
abbrev Reader (α : Type) := Value → Except Fault α

namespace Reader

variable {α : Type}

/-- Reads a truth value. -/
def bool : Reader Bool
  | .bool b => .ok b
  | _ => .error .invalidType

/-- Reads text. -/
def text : Reader String
  | .str s => .ok s
  | _ => .error .invalidType

/-- Reads a natural number below a bound. -/
def natBelow (bound : Nat) : Reader Nat
  | .num n =>
    match n.int? with
    | some (.ofNat k) => if k < bound then .ok k else .error .invalidValue
    | some (.negSucc _) => .error .invalidValue
    | none => .error .invalidType
  | _ => .error .invalidType

/-- Reads a number of 64 bits. -/
def uint64 : Reader UInt64 :=
  fun v => (natBelow UInt64.size v).map UInt64.ofNat

/-- Reads a number of 32 bits. -/
def uint32 : Reader UInt32 :=
  fun v => (natBelow UInt32.size v).map UInt32.ofNat

/-- Reads null as nothing. -/
def orNull (r : Reader α) : Reader (Option α)
  | .null => .ok none
  | v => (r v).map some

/-- Reads each item of a list; the first fault counts. -/
def items (r : Reader α) : List Value → Except Fault (List α)
  | [] => .ok []
  | v :: rest => do
    let a ← r v
    let as ← items r rest
    return a :: as

/-- Reads a list. -/
def listOf (r : Reader α) : Reader (List α)
  | .list vs => items r vs
  | _ => .error .invalidType

end Reader

/-! ## Schemas -/

/-- How a structure is read. -/
structure Schema (α : Type) where
  /-- Looks at one member of a record, and accepts the members it does not know. -/
  check : String → Value → Except Fault Unit
  /-- Puts the structure together from the members of a record. -/
  ofMembers : (String → Option Value) → Except Fault α
  /-- Puts the structure together from the first entries of a list. -/
  ofItems : List Value → Except Fault (α × List Value)

namespace Schema

variable {α β : Type}

/-- The schema without fields. -/
def const (a : α) : Schema α where
  check _ _ := .ok ()
  ofMembers _ := .ok a
  ofItems vs := .ok (a, vs)

/-- One more field, which has to be there. -/
def field (s : Schema (β → α)) (name : String) (r : Reader β) : Schema α where
  check key v := do
    s.check key v
    if key = name then discard (r v)
  ofMembers members := do
    let f ← s.ofMembers members
    match members name with
    | some v => return f (← r v)
    | none => throw (.missingField name)
  ofItems vs := do
    match ← s.ofItems vs with
    | (f, v :: rest) => return (f (← r v), rest)
    | (_, []) => throw .invalidLength

/-- One more field, which takes a value of its own when it is not there. -/
def optional (s : Schema (β → α)) (name : String) (r : Reader β) (default : β) : Schema α where
  check key v := do
    s.check key v
    if key = name then discard (r v)
  ofMembers members := do
    let f ← s.ofMembers members
    match members name with
    | some v => return f (← r v)
    | none => return f default
  ofItems vs := do
    match ← s.ofItems vs with
    | (f, v :: rest) => return (f (← r v), rest)
    | (f, []) => return (f default, [])

/-- Looks at the members of a record in order. -/
def checkAll (s : Schema α) : List (String × Value) → Except Fault Unit
  | [] => .ok ()
  | (key, v) :: rest => do
    s.check key v
    checkAll s rest

/-- Reads a structure from a record or a list. -/
def read (s : Schema α) : Reader α
  | .record members => do
    s.checkAll members
    s.ofMembers (Members.get? members)
  | .list vs => do
    match ← s.ofItems vs with
    | (a, []) => return a
    | (_, _ :: _) => throw .invalidLength
  | _ => .error .invalidType

end Schema
end Json
end AwardsDesk
