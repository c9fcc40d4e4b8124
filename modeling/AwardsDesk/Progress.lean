/-!
# Progress
-/

namespace AwardsDesk

/-- How far a call got: it waits and can go on later, or it has ended. -/
inductive Progress (κ ρ : Type) where
  | waiting (call : κ)
  | ended (result : ρ)

end AwardsDesk
