import AwardsDesk.Json.Fault
import AwardsDesk.Json.Tree

/-!
# Settings

A document of settings changes some of the settings of a given start and leaves the
others.  It is read from its beginning to its end, and the first thing wrong with
it is reported, be it the document itself or a value in it.  No setting may be
given twice.  Members that are no settings are passed over as long as their shape
is right.

Main definitions:

- Structure {lit}`Setting`: a setting by name.
- Function {lit}`Settings.read`: the settings of a tree.
- Function {lit}`Settings.ofText`: the settings of a text.
-/

namespace AwardsDesk
namespace Json

/-! ## Reading single trees -/

namespace Tree

variable {α : Type}

/-- The fault of a tree that stands where another type is expected.  A container is
recognised by its bracket, anything else only when it can be read. -/
def wrongType : Tree → Fault
  | broken => .malformed
  | num n => if n.isTooLarge then .malformed else .invalidType
  | str none => .malformed
  | _ => .invalidType

/-- Reads a number of 64 bits. -/
def uint64 : Tree → Except Fault UInt64
  | num n =>
    if n.isTooLarge then .error .malformed
    else
      match n.int? with
      | some (.ofNat k) => .ok (UInt64.ofNat k)
      | some (.negSucc _) => .error .invalidValue
      | none => .error .invalidType
  | t => .error t.wrongType

/-- Reads text. -/
def text : Tree → Except Fault String
  | str (some s) => .ok s
  | t => .error t.wrongType

/-- Reads null as nothing. -/
def orNull (r : Tree → Except Fault α) : Tree → Except Fault (Option α)
  | null => .ok none
  | t => (r t).map some

end Tree

/-! ## Settings -/

/-- A setting of {lit}`σ` by name, and how a tree changes it. -/
structure Setting (σ : Type) where
  name : String
  put : Tree → σ → Except Fault σ

namespace Settings

variable {σ : Type}

/-- Reads the members of a record from first to last.  The names already seen are
carried along. -/
def readMembers (settings : List (Setting σ)) (seen : List String) (s : σ) :
    List (Option String × Tree) → Except Fault σ
  | [] => .ok s
  | (none, _) :: _ => .error .malformed
  | (some key, t) :: rest =>
    match settings.find? (·.name == key) with
    | none =>
      if t.wellShaped then readMembers settings seen s rest else .error .malformed
    | some setting =>
      if key ∈ seen then .error (.duplicateField key)
      else do
        let s ← setting.put t s
        readMembers settings (key :: seen) s rest

/-- Reads the items of a list as the settings in order.  Settings at the end may be
left out. -/
def readItems (s : σ) : List (Setting σ) → List Tree → Except Fault σ
  | _, [] => .ok s
  | [], _ :: _ => .error .malformed
  | setting :: settings, t :: rest => do
    let s ← setting.put t s
    readItems s settings rest

/-- A container has to be closed once its entries are read. -/
def whenWhole (whole : Bool) (s : σ) : Except Fault σ :=
  if whole then .ok s else .error .malformed

/-- Reads settings from a tree, starting from given ones. -/
def read (settings : List (Setting σ)) (start : σ) : Tree → Except Fault σ
  | .record members whole => do
    let s ← readMembers settings [] start members
    whenWhole whole s
  | .list items whole => do
    let s ← readItems start settings items
    whenWhole whole s
  | t => .error t.wrongType

/-- Reads settings from a text.  Text behind the document is noticed last. -/
def ofText (settings : List (Setting σ)) (start : σ) (text : String) : Except Fault σ := do
  let d := Document.ofText text
  let s ← read settings start d.root
  whenWhole (!d.trailing) s

end Settings
end Json
end AwardsDesk
