import Verdict.Grammar
import Verdict.Reduction

/-!
# Evaluating a condition

The tokens of a condition are reduced while it is folded. A fault of the reduction at an earlier
token thus comes before a fault of the folding at a later one; only when all tokens up to the fault
are taken does the fault of the folding count.
-/

namespace Verdict

/-- **The truth of a condition** where variables have the values of a lookup. -/
def Condition.evaluate (lookup : Lookup) (c : Condition) : Except Fault Bool :=
  let (tokens, fault) := Condition.tokens lookup c
  match Reducer.start.pushAll tokens with
  | .error x => .error x
  | .ok r =>
    match fault with
    | some x => .error x
    | none => r.finish

/-- The truth of a condition by its tokens and the fault behind them. -/
theorem Condition.evaluate_of_tokens {lookup : Lookup} {c : Condition} {ts : List Token}
    {fault : Option Fault} (h : Condition.tokens lookup c = (ts, fault)) :
    c.evaluate lookup = (Reducer.start.pushAll ts).bind fun r =>
      match fault with
      | some x => .error x
      | none => r.finish := by
  simp only [evaluate, h]
  cases Reducer.start.pushAll ts <;> rfl

/-- The condition a text stands for under the default grammar. -/
def parse [RegexLibrary] (text : String) : Except Fault Condition := Grammar.default.read text

/-- The truth of the condition a text stands for. -/
def evaluateText [RegexLibrary] (lookup : Lookup) (text : String) : Except Fault Bool := do
  let c ← parse text
  c.evaluate lookup

end Verdict
