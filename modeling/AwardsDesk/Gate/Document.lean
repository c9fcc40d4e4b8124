import AwardsDesk.Gate.Options
import AwardsDesk.Json.Settings
import AwardsDesk.Json.Value

/-!
# Gate options in documents
-/

namespace AwardsDesk
namespace Gate
namespace Options

open Json

/-- The settings of gate options. -/
def settings : List (Setting Options) :=
  [{ name := "timeout_ms", put := fun t o => t.uint64.map fun n => { o with timeoutMs := n } }]

/-- Reads options from a tree, those not given being the default ones. -/
def ofTree (t : Tree) : Except Fault Options :=
  Settings.read settings {} t

/-- Reads options from a text, those not given being the default ones. -/
def ofText (text : String) : Except Fault Options :=
  Settings.ofText settings {} text

/-- Options as a value. -/
def toValue (o : Options) : Value :=
  .ofMembers [("timeout_ms", .ofNat o.timeoutMs.toNat)]

end Options
end Gate
end AwardsDesk
