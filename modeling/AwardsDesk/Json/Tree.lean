import AwardsDesk.Json.Token

/-!
# Documents as far as they can be read

Tokens are put together to a tree.  Where a document goes wrong the tree says so:
a container that is not closed properly is not whole, and a value that is missing
or spoilt is broken.  So the tree of any text holds what stands before the first
flaw, and readers can tell which comes first, the flaw or a fault of their own.

Main definitions:

- Inductive type {lit}`Tree`: a document with its flaws.
- Function {lit}`Document.ofTokens`: the document of a token sequence.
-/

namespace AwardsDesk
namespace Json

/-- A document, possibly with flaws.  A container that is not whole went wrong after
its last entry; keys and strings that stand for no text have none. -/
inductive Tree where
  | null
  | bool (b : Bool)
  | num (n : Numeral)
  | str (s : Option String)
  | list (items : List Tree) (whole : Bool)
  | record (members : List (Option String × Tree)) (whole : Bool)
  /-- A value that is missing or spoilt. -/
  | broken

namespace Tree

mutual

/-- Whether the tree has no flaw in its shape.  Numbers may be of any size and
strings of any units. -/
def wellShaped : Tree → Bool
  | broken => false
  | list items whole => allWellShaped items && whole
  | record members whole => membersWellShaped members && whole
  | _ => true

/-- Whether no tree of a list has a flaw in its shape. -/
def allWellShaped : List Tree → Bool
  | [] => true
  | t :: rest => t.wellShaped && allWellShaped rest

/-- Whether no value of a record has a flaw in its shape. -/
def membersWellShaped : List (Option String × Tree) → Bool
  | [] => true
  | (_, t) :: rest => t.wellShaped && membersWellShaped rest

end

end Tree

/-! ## Building trees from tokens -/

/-- A container under way, around a value that is being read.  Entries are kept last
first. -/
inductive Frame where
  | list (done : List Tree)
  | record (done : List (Option String × Tree)) (key : Option String)

/-- What has been read, and what may come next.  The frames are those of the
containers around, innermost first. -/
inductive Reading where
  | value (frames : List Frame)
  | listStart (frames : List Frame)
  | listRest (done : List Tree) (frames : List Frame)
  | recordStart (frames : List Frame)
  | recordKey (done : List (Option String × Tree)) (frames : List Frame)
  | recordColon (done : List (Option String × Tree)) (key : Option String) (frames : List Frame)
  | recordRest (done : List (Option String × Tree)) (frames : List Frame)
  /-- The document is complete. -/
  | complete (root : Tree)
  /-- The document is complete, and more text follows. -/
  | overrun (root : Tree)
  /-- The document went wrong. -/
  | stopped (root : Tree)

namespace Reading

/-- A value has been read inside the frames. -/
def close (t : Tree) : List Frame → Reading
  | [] => .complete t
  | .list done :: frames => .listRest (t :: done) frames
  | .record done key :: frames => .recordRest ((key, t) :: done) frames

/-- The document goes wrong after this much of a value inside the frames. -/
def cut (t : Tree) : List Frame → Tree
  | [] => t
  | .list done :: frames => cut (.list (t :: done).reverse false) frames
  | .record done key :: frames => cut (.record ((key, t) :: done).reverse false) frames

/-- A token where a value has to come. -/
def takeValue (frames : List Frame) : Token → Reading
  | .null => close .null frames
  | .bool b => close (.bool b) frames
  | .num n => close (.num n) frames
  | .str s => close (.str s) frames
  | .openList => .listStart frames
  | .openRecord => .recordStart frames
  | _ => .stopped (cut .broken frames)

/-- The next token is taken. -/
def step : Reading → Token → Reading
  | .value frames, token => takeValue frames token
  | .listStart frames, .closeList => close (.list [] true) frames
  | .listStart frames, token => takeValue (.list [] :: frames) token
  | .listRest done frames, .comma => .value (.list done :: frames)
  | .listRest done frames, .closeList => close (.list done.reverse true) frames
  | .listRest done frames, _ => .stopped (cut (.list done.reverse false) frames)
  | .recordStart frames, .closeRecord => close (.record [] true) frames
  | .recordStart frames, .str key => .recordColon [] key frames
  | .recordStart frames, _ => .stopped (cut (.record [] false) frames)
  | .recordKey done frames, .str key => .recordColon done key frames
  | .recordKey done frames, _ => .stopped (cut (.record done.reverse false) frames)
  | .recordColon done key frames, .colon => .value (.record done key :: frames)
  | .recordColon done key frames, _ => .stopped (cut .broken (.record done key :: frames))
  | .recordRest done frames, .comma => .recordKey done frames
  | .recordRest done frames, .closeRecord => close (.record done.reverse true) frames
  | .recordRest done frames, _ => .stopped (cut (.record done.reverse false) frames)
  | .complete root, _ => .overrun root
  | .overrun root, _ => .overrun root
  | .stopped root, _ => .stopped root

end Reading

/-- A document: its tree, and whether text follows that does not belong to it. -/
structure Document where
  root : Tree
  trailing : Bool := false

namespace Document

/-- The document at the end of the tokens. -/
def ofReading : Reading → Document
  | .value frames => { root := Reading.cut .broken frames }
  | .listStart frames => { root := Reading.cut (.list [] false) frames }
  | .listRest done frames => { root := Reading.cut (.list done.reverse false) frames }
  | .recordStart frames => { root := Reading.cut (.record [] false) frames }
  | .recordKey done frames => { root := Reading.cut (.record done.reverse false) frames }
  | .recordColon done key frames =>
    { root := Reading.cut .broken (.record done key :: frames) }
  | .recordRest done frames => { root := Reading.cut (.record done.reverse false) frames }
  | .complete root => { root }
  | .overrun root => { root, trailing := true }
  | .stopped root => { root }

/-- The document of a token sequence. -/
def ofTokens (tokens : List Token) : Document :=
  ofReading (tokens.foldl Reading.step (.value []))

/-- The document of a text. -/
def ofText (text : String) : Document :=
  ofTokens (Token.ofText text)

end Document
end Json
end AwardsDesk
