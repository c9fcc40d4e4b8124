import AwardsDesk.Gate.Basic
import AwardsDesk.Text.Quoted

/-!
# Descriptions of gates and tickets

One-line descriptions for people who look into a running desk.
-/

namespace AwardsDesk
namespace Gate

/-- The phase in one word. -/
def Phase.describe : Phase → String
  | granted => "Granted"
  | locked => "Locked"
  | released => "Released"

/-- The status in one word. -/
def Status.describe : Status → String
  | free => "Free"
  | held => "Held"

/-- A gate by name and timeout. -/
def describe (g : Gate) : String :=
  "MutexGate \x7b name: " ++ Text.quoted g.name ++ ", timeout_ms: " ++
    toString g.options.timeoutMs.toNat ++ " \x7d"

/-- A ticket by gate, number and phase. -/
def describeTicket (g : Gate) (id : Nat) : String :=
  "Ticket \x7b gate: " ++ Text.quoted g.name ++ ", id: " ++ toString id ++ ", phase: " ++
    (g.phase id).describe ++ " \x7d"

end Gate
end AwardsDesk
