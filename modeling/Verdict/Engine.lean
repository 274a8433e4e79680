import Verdict.Executor
import Verdict.Explanation
import Verdict.Registry.References

/-!
# Engines

An engine holds rules, facts, options and perhaps a target, which is one of its
rules. It evaluates all rules in order, or the target alone and then with more
detail.

What comes out is an outcome: the event that a rule gives out, with what the
options ask for.
-/

namespace Verdict

/-- What outcomes contain and how deep references may go. -/
structure EngineOptions where
  includeInterpretation : Bool := true
  includeFailedConditions : Bool := true
  includeFacts : Bool := true
  maxDepth : Nat := Evaluation.defaultDepth
  deriving DecidableEq

/-- The event that a rule gave out, with what was asked for. -/
structure Outcome where
  rule : String
  matched : Bool
  event : Event
  facts : Option Json := none
  interpretation : Option String := none
  failedConditions : Option (List Clause) := none

/-- The written form of an outcome; what was not asked for is left out. -/
def Outcome.toJson (outcome : Outcome) : Json :=
  .ofFields [
    ("type", some (.string outcome.event.type)),
    ("params", some (.ofDictionary outcome.event.params)),
    ("facts", outcome.facts),
    ("interpretation", outcome.interpretation.map .string),
    ("failedConditions", outcome.failedConditions.map fun clauses =>
      .array (clauses.map Clause.toJson))]

/-- Rules with facts, options and perhaps a target. -/
structure Engine where
  registry : Registry := ∅
  facts : Facts := ∅
  target : Option String := none
  options : EngineOptions := {}

namespace Engine

/-- Registers a rule. -/
def addRule (engine : Engine) (rule : Rule) : Except Error Engine :=
  (engine.registry.register rule).map fun registry => { engine with registry }

/-- Registers rules in order, up to the first one whose name is taken. -/
def addRules (engine : Engine) (rules : List Rule) : Engine × Option Error :=
  let (registry, error) := engine.registry.registerAll rules
  ({ engine with registry }, error)

/-- Adds a fact, or replaces the value of its name. -/
def addFact (engine : Engine) (name : String) (value : Json) : Engine :=
  { engine with facts := engine.facts.add name value }

/-- Puts other facts in place of all facts. -/
def setFacts (engine : Engine) (facts : Facts) : Engine :=
  { engine with facts }

/-- Makes a registered rule the target. -/
def setTarget (engine : Engine) (name : String) : Except Error Engine :=
  (engine.registry.get name).map fun _ => { engine with target := some name }

/-- Puts other options in place. -/
def setOptions (engine : Engine) (options : EngineOptions) : Engine :=
  { engine with options }

/-- The settings under which the engine evaluates its rules. -/
def executor (engine : Engine) : Executor where
  registry := engine.registry
  facts := engine.facts
  maxDepth := engine.options.maxDepth

/-- The outcome of an evaluation, with the facts if they are asked for. -/
def outcome (engine : Engine) (evaluation : Evaluation) : Outcome where
  rule := evaluation.rule
  matched := evaluation.verdict
  event := evaluation.event
  facts := if engine.options.includeFacts then some engine.facts.snapshot else none

/-- Evaluates all rules in order, up to the first one that fails to evaluate. -/
def run (engine : Engine) : Except Error (List Outcome) :=
  engine.registry.rules.mapM fun rule => (engine.executor.execute rule).map engine.outcome

/-- The name of the target. -/
def targetName (engine : Engine) : Except Error String :=
  match engine.target with
  | some name => .ok name
  | none => .error .noTargetRule

/-- The explanation of the target. -/
def interpret (engine : Engine) : Except Error String := do
  let name ← engine.targetName
  let rule ← engine.registry.get name
  rule.condition.explain

/-- The full evaluation of the target. -/
def evaluateDetailed (engine : Engine) : Except Error Evaluation := do
  let name ← engine.targetName
  engine.executor.executeByName name

/-- The outcome of the target, with what the options ask for. The failed
conditions are those of a target that does not hold. -/
def evaluate (engine : Engine) : Except Error Outcome := do
  let name ← engine.targetName
  let rule ← engine.registry.get name
  let evaluation ← engine.executor.execute rule
  let interpretation ←
    if engine.options.includeInterpretation then rule.condition.explain.map some else .ok none
  let isTrailed := engine.options.includeFailedConditions && !evaluation.verdict
  return { engine.outcome evaluation with
    interpretation
    failedConditions := if isTrailed then some evaluation.failedConditions else none }

end Engine

end Verdict
