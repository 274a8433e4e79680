import Verdict.Condition.Spec
import Verdict.Json.Writer

/-!
# Evaluations

An evaluation reports what a rule came to: whether it holds, the event that it
gives out, the clauses that failed, the rules that were asked, and a trace of
every step.

A trace has a line for each condition that was evaluated. A line begins with the
address of the condition, which leads to it from the name of its rule.
-/

namespace Verdict

/-- What the evaluation of a rule shows. -/
structure Evaluation where
  rule : String
  verdict : Bool
  event : Event
  failedConditions : List Clause
  dependencies : List String
  trace : List String

namespace Evaluation

/-- The default limit of rules on a chain of references. -/
def defaultDepth : Nat :=
  32

/-- The written form of an evaluation. -/
def toJson (evaluation : Evaluation) : Json :=
  .object [
    ("rule", .string evaluation.rule),
    ("verdict", .boolean evaluation.verdict),
    ("event", evaluation.event.toJson),
    ("failedConditions", .array (evaluation.failedConditions.map Clause.toJson)),
    ("dependencies", .array (evaluation.dependencies.map .string)),
    ("evaluationTrace", .array (evaluation.trace.map .string))]

end Evaluation

namespace Trace

/-- The address of what a negation negates. -/
def childAddress (negation : String) : String :=
  negation ++ ".not"

/-- The address of a clause of a group. -/
def clauseAddress (group word : String) (index : Nat) : String :=
  group ++ "." ++ word ++ "[" ++ toString index ++ "]"

/-- A line of a trace. -/
def line (address text : String) : String :=
  address ++ ": " ++ text

/-- The word for a verdict. -/
def outcomeText (matched : Bool) : String :=
  if matched then "MATCHED" else "NOT_MATCHED"

/-- The path of a leaf. -/
def pathText : Option String → String
  | none => ""
  | some path => "[" ++ path ++ "]"

/-- What a leaf came to. -/
def leafText (leaf : Leaf) (operator : String) (matched : Bool) : String :=
  leaf.fact ++ pathText leaf.path ++ " " ++ operator ++ " " ++ leaf.value.compact ++
    " => " ++ outcomeText matched

/-- What a reference came to. -/
def referenceText (rule : String) (matched : Bool) : String :=
  "规则 " ++ rule ++ " => " ++ outcomeText matched

/-- What a negation came to. -/
def negationText (matched : Bool) : String :=
  "NOT => " ++ outcomeText matched

/-- What a group of which all must hold came to, with the index of the clause
that does not hold, if there is one. -/
def allText : Option Nat → String
  | none => "ALL 组全部匹配"
  | some index => "ALL 短路 - 子节点 " ++ toString index ++ " 不匹配"

/-- What a group of which any must hold came to, with the index of the clause
that holds, if there is one. -/
def anyText : Option Nat → String
  | none => "ANY 组无匹配"
  | some index => "ANY 短路 - 子节点 " ++ toString index ++ " 匹配"

end Trace

end Verdict
