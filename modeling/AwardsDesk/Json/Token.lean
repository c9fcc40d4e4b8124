import AwardsDesk.Json.Numeral

/-!
# Tokens of a document

The text of a document is cut into brackets, marks, words, numerals and strings.
Between tokens there may be spaces, tabs and line ends, and nothing else.  The
first character at which no token can go on ends the sequence with a token of its
own, so that what stands before it can still be looked at.

Main definitions:

- Function {lit}`Scanner.step`: the scanner takes one character.
- Function {lit}`Token.ofText`: the tokens of a text.
-/

namespace AwardsDesk
namespace Json

/-- A token.  A string that does not stand for any text has none. -/
inductive Token where
  | null
  | bool (b : Bool)
  | num (n : Numeral)
  | str (s : Option String)
  | openList
  | closeList
  | openRecord
  | closeRecord
  | comma
  | colon
  /-- What stands here is no token. -/
  | bad
deriving DecidableEq, Repr

/-! ## Strings -/

/-- A part of a string: a character, or a unit of sixteen bits written by number. -/
inductive Piece where
  | char (c : Char)
  | unit (u : Nat)
deriving DecidableEq, Repr

/-- The text of the parts of a string.  Units in the surrogate range have to come in
pairs of a leading and a trailing one. -/
def Piece.text : List Piece → Option (List Char)
  | [] => some []
  | .char c :: rest => (Piece.text rest).map (c :: ·)
  | .unit u :: .unit v :: rest =>
    if 0xD800 ≤ u ∧ u < 0xDC00 then
      if 0xDC00 ≤ v ∧ v < 0xE000 then
        (Piece.text rest).map
          (Char.ofNat (0x10000 + (u - 0xD800) * 0x400 + (v - 0xDC00)) :: ·)
      else none
    else if 0xDC00 ≤ u ∧ u < 0xE000 then none
    else (Piece.text (.unit v :: rest)).map (Char.ofNat u :: ·)
  | .unit u :: rest =>
    if 0xD800 ≤ u ∧ u < 0xE000 then none
    else (Piece.text rest).map (Char.ofNat u :: ·)

/-- The character that a letter after a backslash stands for. -/
def escaped? : Char → Option Char
  | '"' => some '"'
  | '\\' => some '\\'
  | '/' => some '/'
  | 'b' => some '\x08'
  | 'f' => some '\x0c'
  | 'n' => some '\n'
  | 'r' => some '\r'
  | 't' => some '\t'
  | _ => none

/-- The value of a hexadecimal digit. -/
def hexDigit? (c : Char) : Option Nat :=
  if '0' ≤ c ∧ c ≤ '9' then some (c.toNat - 48)
  else if 'a' ≤ c ∧ c ≤ 'f' then some (c.toNat - 87)
  else if 'A' ≤ c ∧ c ≤ 'F' then some (c.toNat - 55)
  else none

/-! ## The scanner -/

namespace Scanner

/-- The part of a numeral that was read last. -/
inductive NumberPart where
  | sign
  /-- A leading zero, which no digit may follow. -/
  | zero
  | whole
  | point
  | fraction
  | mark
  | markSign
  | exponent
deriving DecidableEq, Repr

/-- Whether a numeral can end after this part. -/
def NumberPart.complete : NumberPart → Bool
  | zero | whole | fraction | exponent => true
  | _ => false

/-- A numeral takes one more character, if it can. -/
def extend (part : NumberPart) (n : Numeral) (c : Char) : Option (NumberPart × Numeral) :=
  match part with
  | .sign =>
    if c = '0' then some (.zero, { n with whole := [c] })
    else if c.isDigit then some (.whole, { n with whole := [c] })
    else none
  | .zero =>
    if c = '.' then some (.point, n)
    else if c = 'e' ∨ c = 'E' then some (.mark, n)
    else none
  | .whole =>
    if c.isDigit then some (.whole, { n with whole := n.whole ++ [c] })
    else if c = '.' then some (.point, n)
    else if c = 'e' ∨ c = 'E' then some (.mark, n)
    else none
  | .point =>
    if c.isDigit then some (.fraction, { n with fraction := [c] }) else none
  | .fraction =>
    if c.isDigit then some (.fraction, { n with fraction := n.fraction ++ [c] })
    else if c = 'e' ∨ c = 'E' then some (.mark, n)
    else none
  | .mark =>
    if c.isDigit then some (.exponent, { n with exponent := some ⟨false, [c]⟩ })
    else if c = '+' then some (.markSign, { n with exponent := some ⟨false, []⟩ })
    else if c = '-' then some (.markSign, { n with exponent := some ⟨true, []⟩ })
    else none
  | .markSign | .exponent =>
    if c.isDigit then
      some (.exponent,
        { n with exponent := n.exponent.map fun e => { e with digits := e.digits ++ [c] } })
    else none

/-- Where the scanner is.  Parts of a string are kept last first. -/
inductive Mode where
  | between
  /-- Inside a word, with the letters that have to follow. -/
  | word (rest : List Char) (token : Token)
  | text (done : List Piece)
  | escape (done : List Piece)
  /-- Inside a unit written by number, with the digits still to come. -/
  | unit (done : List Piece) (left value : Nat)
  | number (part : NumberPart) (n : Numeral)
  /-- After something that is no token. -/
  | stuck
deriving DecidableEq, Repr

/-- The scanner stops at something that is no token. -/
def refuse : List Token × Mode :=
  ([.bad], .stuck)

/-- A character between tokens. -/
def start (c : Char) : List Token × Mode :=
  match c with
  | ' ' | '\t' | '\n' | '\r' => ([], .between)
  | '[' => ([.openList], .between)
  | ']' => ([.closeList], .between)
  | '\x7b' => ([.openRecord], .between)
  | '\x7d' => ([.closeRecord], .between)
  | ',' => ([.comma], .between)
  | ':' => ([.colon], .between)
  | '"' => ([], .text [])
  | 'n' => ([], .word ['u', 'l', 'l'] .null)
  | 't' => ([], .word ['r', 'u', 'e'] (.bool true))
  | 'f' => ([], .word ['a', 'l', 's', 'e'] (.bool false))
  | '-' => ([], .number .sign { negative := true })
  | c =>
    if c = '0' then ([], .number .zero { whole := [c] })
    else if c.isDigit then ([], .number .whole { whole := [c] })
    else refuse

/-- The scanner takes one character and gives the tokens that end with it. -/
def step (m : Mode) (c : Char) : List Token × Mode :=
  match m with
  | .between => start c
  | .word (d :: rest) token =>
    if c = d then
      if rest.isEmpty then ([token], .between) else ([], .word rest token)
    else refuse
  | .word [] _ => refuse
  | .text done =>
    if c = '"' then ([.str ((Piece.text done.reverse).map String.ofList)], .between)
    else if c = '\\' then ([], .escape done)
    else if c.toNat < 0x20 then refuse
    else ([], .text (.char c :: done))
  | .escape done =>
    if c = 'u' then ([], .unit done 4 0)
    else match escaped? c with
      | some d => ([], .text (.char d :: done))
      | none => refuse
  | .unit done left value =>
    match hexDigit? c with
    | none => refuse
    | some d =>
      if left ≤ 1 then ([], .text (.unit (value * 16 + d) :: done))
      else ([], .unit done (left - 1) (value * 16 + d))
  | .number part n =>
    match extend part n c with
    | some (part, n) => ([], .number part n)
    | none =>
      if part.complete && !(part == .zero && c.isDigit) then
        let (tokens, m) := start c
        (.num n :: tokens, m)
      else refuse
  | .stuck => ([], .stuck)

/-- The tokens that end with the text. -/
def finish : Mode → List Token
  | .between => []
  | .number part n => if part.complete then [.num n] else [.bad]
  | .stuck => []
  | _ => [.bad]

/-- The tokens of the rest of a text. -/
def scan : Mode → List Char → List Token
  | m, [] => finish m
  | m, c :: cs => (step m c).1 ++ scan (step m c).2 cs

@[simp]
theorem scan_nil (m : Mode) : scan m [] = finish m :=
  rfl

@[simp]
theorem scan_cons (m : Mode) (c : Char) (cs : List Char) :
    scan m (c :: cs) = (step m c).1 ++ scan (step m c).2 cs :=
  rfl

end Scanner

/-- The tokens of a text. -/
def Token.ofText (text : String) : List Token :=
  Scanner.scan .between text.toList

end Json
end AwardsDesk
