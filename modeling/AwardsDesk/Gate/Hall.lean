import AwardsDesk.Gate.Basic

/-!
# A hall of gates

Several gates side by side, each known by its number in order of creation.
-/

namespace AwardsDesk
namespace Gate

/-- Gates side by side, by number. -/
structure Hall where
  gates : List Gate := []
deriving Repr, Inhabited

namespace Hall

/-- The gate of a number. -/
def gate (h : Hall) (n : Nat) : Gate :=
  h.gates.getD n default

/-- Puts a gate in the place of the one of a number. -/
def put (h : Hall) (n : Nat) (g : Gate) : Hall where
  gates := h.gates.set n g

/-- Adds a gate and tells its number. -/
def add (h : Hall) (g : Gate) : Hall × Nat :=
  ({ gates := h.gates ++ [g] }, h.gates.length)

/-- A gate put in place is found there. -/
@[simp]
theorem gate_put_self {h : Hall} {n : Nat} (hn : n < h.gates.length) (g : Gate) :
    (h.put n g).gate n = g := by
  simp [gate, put, List.getD, hn]

/-- The other gates stay. -/
@[simp]
theorem gate_put_ne {h : Hall} {m n : Nat} (hmn : m ≠ n) (g : Gate) :
    (h.put m g).gate n = h.gate n := by
  simp [gate, put, List.getD, List.getElem?_set_ne hmn]

end Hall
end Gate
end AwardsDesk
