import AwardsDesk.Awards.Response
import AwardsDesk.Store.Basic

/-!
# Backends

A board asks its backend.  That is a store, or a service at the other end of a wire
whose responses are read as they come.

Main definitions:

- Functions {lit}`Backend.begin` and {lit}`Backend.finish`: a request begins and ends.
-/

namespace AwardsDesk

open Board (Request Error)

/-- A service at the other end of a wire: the responses it will send, and the requests
it was sent. -/
structure Wire where
  responses : List String := []
  requests : List Request := []
deriving Repr, Inhabited

namespace Wire

/-- Reads the response to a request. -/
def read (body : String) : (r : Request) → Except Error r.Answer
  | .fetchAwards .. => Response.awards body
  | .setPickedUp .. => Response.pickup body
  | .fetchNotes .. => Response.notes body
  | .saveNotes .. => Response.notes body

/-- A request is sent. -/
def begin (w : Wire) (r : Request) : Wire :=
  { w with requests := w.requests ++ [r] }

/-- The next response is taken. -/
def finish (w : Wire) (r : Request) : Wire × Except Error r.Answer :=
  match w.responses with
  | [] => (w, .error (.backend "no response"))
  | body :: rest => ({ w with responses := rest }, read body r)

end Wire

/-- A backend. -/
inductive Backend where
  | store (s : Store)
  | wire (w : Wire)
deriving Repr, Inhabited

namespace Backend

/-- A request begins. -/
def begin (b : Backend) (r : Request) : Backend :=
  match b with
  | store s => store s.begin
  | wire w => wire (w.begin r)

/-- A request ends. -/
def finish (b : Backend) (r : Request) : Backend × Except Error r.Answer :=
  match b with
  | store s =>
    let (s, answer) := s.finish r
    (store s, answer)
  | wire w =>
    let (w, answer) := w.finish r
    (wire w, answer)

end Backend
end AwardsDesk
