/-!
# Junctions

The two ways to join conditions. Which of them binds tighter is not said here: that is the business
of the reduction (`Verdict/Reduction.lean`).
-/

namespace Verdict

/-- How two conditions are joined. -/
inductive Junction
  | and
  | or
deriving DecidableEq

namespace Junction

/-- The truth of the joined condition. -/
def apply : Junction → Bool → Bool → Bool
  | and, a, b => a && b
  | or, a, b => a || b

/-- The word for a junction in messages. -/
def word : Junction → String
  | and => "And"
  | or => "Or"

@[simp] theorem apply_and (a b : Bool) : and.apply a b = (a && b) := rfl

@[simp] theorem apply_or (a b : Bool) : or.apply a b = (a || b) := rfl

end Junction

end Verdict
