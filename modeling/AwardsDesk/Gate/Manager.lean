import AwardsDesk.Gate.Hall

/-!
# Gate managers

A manager hands out gates by name: the same gate for the same name.  A gate is
made on the first request with the manager's own options, or registered before
that with options of its own.
-/

namespace AwardsDesk
namespace Gate

/-- A manager: options for gates made on request, and the number of the gate
bound to each name. -/
structure Manager where
  defaults : Options := {}
  bound : List (String × Nat) := []
deriving Repr

namespace Manager

/-- The number of the gate bound to a name. -/
def lookup (m : Manager) (name : String) : Option Nat :=
  m.bound.lookup name

/-- Makes a gate in the hall and binds it to its name. -/
def bind (m : Manager) (h : Hall) (name : String) (options : Options) :
    Except Error (Manager × Hall × Nat) :=
  (Gate.make name options).map fun g =>
    let (hall, n) := h.add g
    ({ m with bound := m.bound ++ [(name, n)] }, hall, n)

/-- Makes a gate with options of its own.  A name can be bound only once. -/
def register (m : Manager) (h : Hall) (name : String) (options : Options) :
    Except Error (Manager × Hall × Nat) :=
  match m.lookup name with
  | some _ => .error (.invalidOptions (.nameTaken name))
  | none => m.bind h name options

/-- The gate of a name, made with the manager's options if there is none yet. -/
def get (m : Manager) (h : Hall) (name : String) : Except Error (Manager × Hall × Nat) :=
  match m.lookup name with
  | some n => .ok (m, h, n)
  | none => m.bind h name m.defaults

/-- The bound names in increasing order. -/
def names (m : Manager) : List String :=
  (m.bound.map Prod.fst).mergeSort (fun a b => decide (a ≤ b))

end Manager
end Gate
end AwardsDesk
