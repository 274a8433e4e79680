import Verdict.Condition
import Verdict.Json.Writer

/-!
# Explanations

An explanation reads a condition as a Boolean expression, whatever the facts
are. Groups stand in parentheses, and a rule that is referred to stands for
itself.

A condition with an operator that does not exist has no explanation.
-/

namespace Verdict

/-- An expected value in an explanation: strings without quotes, and a word for null. -/
def Json.explain : Json → String
  | .null => "NULL"
  | .string text => text
  | other => other.compact

/-- A leaf in an explanation. -/
def Leaf.explain (leaf : Leaf) : Except Error String := do
  let operator ← leaf.operator?
  return leaf.displayName ++ " " ++ operator.phrase ++ " " ++ leaf.value.explain

namespace Condition

/-- The parts of a group in parentheses. -/
def group (separator : String) (parts : List String) : String :=
  "(" ++ String.intercalate separator parts ++ ")"

mutual

/-- The Boolean expression of a condition. -/
def explain : Condition → Except Error String
  | .all clauses => (explainClauses clauses).map (group " AND ")
  | .any clauses => (explainClauses clauses).map (group " OR ")
  | .not child => (explain child).map fun text => "NOT (" ++ text ++ ")"
  | .reference rule => .ok rule
  | .leaf comparison => comparison.explain

/-- The Boolean expressions of clauses, in order. -/
def explainClauses : List Clause → Except Error (List String)
  | [] => .ok []
  | ⟨_, _, condition⟩ :: rest => do
    let first ← explain condition
    let others ← explainClauses rest
    return first :: others

end

theorem explainClauses_eq_mapM (clauses : List Clause) :
    explainClauses clauses = clauses.mapM fun clause => clause.condition.explain := by
  induction clauses with
  | nil => rfl
  | cons clause rest inductionHypothesis =>
    obtain ⟨name, event, condition⟩ := clause
    rw [explainClauses, inductionHypothesis, List.mapM_cons]

end Condition

end Verdict
