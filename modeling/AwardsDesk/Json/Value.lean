import AwardsDesk.Json.Tree

/-!
# Values

A document without flaws stands for a value.  The order in which a record lists its
members does not belong to the value, and of members with one key the last counts:
members are kept in increasing order of their keys, each key once.

Main definitions:

- Function {lit}`Members.insert`: adds or replaces a member.
- Function {lit}`Value.ofText?`: the value a text stands for.
- Function {lit}`Value.chars`: the text of a value.

Main results:

- Theorems {lit}`Members.get?_insert_self` and {lit}`Members.get?_insert_ne`: what is
  found after a member was inserted.
-/

namespace AwardsDesk
namespace Json

/-- A value. -/
inductive Value where
  | null
  | bool (b : Bool)
  | num (n : Numeral)
  | str (s : String)
  | list (items : List Value)
  | record (members : List (String × Value))
deriving Inhabited

/-! ## Members of records -/

namespace Members

/-- Adds a member in the order of keys, or replaces the one of its key. -/
def insert (key : String) (v : Value) : List (String × Value) → List (String × Value)
  | [] => [(key, v)]
  | (k, w) :: rest =>
    if key < k then (key, v) :: (k, w) :: rest
    else if key = k then (key, v) :: rest
    else (k, w) :: insert key v rest

/-- The member of a key. -/
def get? : List (String × Value) → String → Option Value
  | [], _ => none
  | (k, v) :: rest, key => if k = key then some v else get? rest key

/-- An inserted member is found. -/
@[simp]
theorem get?_insert_self (key : String) (v : Value) (members : List (String × Value)) :
    get? (insert key v members) key = some v := by
  induction members with
  | nil => simp [insert, get?]
  | cons head rest ih =>
    obtain ⟨k, w⟩ := head
    by_cases hlt : key < k
    · simp [insert, get?, hlt]
    · by_cases heq : key = k
      · simp [insert, get?, heq]
      · simp [insert, get?, hlt, heq, Ne.symm heq, ih]

/-- The other members are found as before. -/
@[simp]
theorem get?_insert_ne {key other : String} (hne : key ≠ other) (v : Value)
    (members : List (String × Value)) :
    get? (insert key v members) other = get? members other := by
  induction members with
  | nil => simp [insert, get?, hne]
  | cons head rest ih =>
    obtain ⟨k, w⟩ := head
    by_cases hlt : key < k
    · simp [insert, get?, hlt, hne]
    · by_cases heq : key = k
      · subst heq
        simp [insert, get?, hne]
      · simp [insert, get?, hlt, heq, ih]

/-- Members given in any order, the last of each key counting. -/
def ofList (members : List (String × Value)) : List (String × Value) :=
  members.foldl (fun done m => insert m.1 m.2 done) []

end Members

namespace Value

/-- The member of a record; other values have none. -/
def member? (v : Value) (key : String) : Option Value :=
  match v with
  | record members => Members.get? members key
  | _ => none

/-- The text of a string; other values have none. -/
def text? : Value → Option String
  | str s => some s
  | _ => none

/-- A record of members given in any order. -/
def ofMembers (members : List (String × Value)) : Value :=
  record (Members.ofList members)

/-- A natural number as a value. -/
def ofNat (n : Nat) : Value :=
  num (Numeral.ofNat n)

end Value

/-! ## Values of documents -/

namespace Tree

mutual

/-- The value of a tree, unless it has a flaw, a number out of range, a string that
stands for no text, or containers nested deeper than there is room for. -/
def value? (room : Nat) : Tree → Option Value
  | null => some .null
  | bool b => some (.bool b)
  | num n => if n.isTooLarge then none else some (.num n)
  | str s => s.map .str
  | list items whole =>
    if whole && 0 < room then (values? (room - 1) items).map .list else none
  | record members whole =>
    if whole && 0 < room then (memberValues? (room - 1) members).map Value.ofMembers else none
  | broken => none

/-- The values of a list. -/
def values? (room : Nat) : List Tree → Option (List Value)
  | [] => some []
  | t :: rest =>
    match t.value? room, values? room rest with
    | some v, some vs => some (v :: vs)
    | _, _ => none

/-- The values of the members of a record. -/
def memberValues? (room : Nat) : List (Option String × Tree) → Option (List (String × Value))
  | [] => some []
  | (key, t) :: rest =>
    match key, t.value? room, memberValues? room rest with
    | some k, some v, some vs => some ((k, v) :: vs)
    | _, _, _ => none

end

end Tree

/-- The number of containers that may stand one inside the other. -/
def maxDepth : Nat := 127

/-- The value a text stands for, if it is a document without flaws. -/
def Value.ofText? (text : String) : Option Value :=
  let d := Document.ofText text
  if d.trailing then none else d.root.value? maxDepth

/-! ## The text of a value -/

/-- A hexadecimal digit. -/
def hexChar (n : Nat) : Char :=
  Nat.digitChar n

/-- A character inside a string. -/
def stringChar (c : Char) : List Char :=
  if c = '"' then ['\\', '"']
  else if c = '\\' then ['\\', '\\']
  else if c = '\x08' then ['\\', 'b']
  else if c = '\x0c' then ['\\', 'f']
  else if c = '\n' then ['\\', 'n']
  else if c = '\r' then ['\\', 'r']
  else if c = '\t' then ['\\', 't']
  else if c.toNat < 0x20 then
    ['\\', 'u', '0', '0', hexChar (c.toNat / 16), hexChar (c.toNat % 16)]
  else [c]

/-- Text as a string. -/
def stringChars (s : String) : List Char :=
  '"' :: (s.toList.flatMap stringChar ++ ['"'])

namespace Value

mutual

/-- The characters of a value, without blanks. -/
def chars : Value → List Char
  | null => ['n', 'u', 'l', 'l']
  | bool true => ['t', 'r', 'u', 'e']
  | bool false => ['f', 'a', 'l', 's', 'e']
  | num n => n.literal
  | str s => stringChars s
  | list items => '[' :: (itemChars items ++ [']'])
  | record members => '\x7b' :: (memberChars members ++ ['\x7d'])

/-- The items of a list, with commas between them. -/
def itemChars : List Value → List Char
  | [] => []
  | [v] => v.chars
  | v :: rest => v.chars ++ ',' :: itemChars rest

/-- The members of a record, with commas between them. -/
def memberChars : List (String × Value) → List Char
  | [] => []
  | [(k, v)] => stringChars k ++ ':' :: v.chars
  | (k, v) :: rest => stringChars k ++ ':' :: (v.chars ++ ',' :: memberChars rest)

end

/-- The text of a value. -/
def render (v : Value) : String :=
  String.ofList v.chars

end Value
end Json
end AwardsDesk
