import Verdict.Comparison
import Verdict.Evaluation
import Verdict.Facts
import Verdict.Registry

/-!
# Execution

To execute a rule is to go through its condition from left to right. Clauses of
a group are evaluated in order, and only up to the first one that settles the
group: one that does not hold settles a group of which all must hold, and one
that holds settles a group of which any must hold. A reference is decided by the
rule that it names, with notes of its own.

The names of the rules that are being evaluated are on a stack. No rule may be
entered twice, nor may the stack grow beyond a limit.
-/

namespace Verdict

/-- What an execution carries from rule to rule. -/
structure Context where
  stack : List String := []
  trace : List String := []

/-- What is noted while one rule is evaluated. -/
structure Scratch where
  failed : List Clause := []
  override : Option Event := none
  dependencies : List String := []

/-- What an execution carries inside one rule. -/
structure Progress extends Context, Scratch

/-- The settings under which rules are evaluated. -/
structure Executor where
  registry : Registry
  facts : Facts
  maxDepth : Nat := Evaluation.defaultDepth
  isTraced : Bool := false

namespace Context

/-- Enters a rule, unless it was entered before or too many rules were. -/
def enter (limit : Nat) (name : String) : EStateM Error Context Unit := do
  let context ← get
  if name ∈ context.stack then
    throw (.circularReference (context.stack.dropWhile (· != name) ++ [name]))
  else if limit ≤ context.stack.length then
    throw (.depthExceeded (context.stack.length + 1) limit)
  else set { context with stack := context.stack ++ [name] }

/-- Leaves the rule that was entered last. -/
def leave (context : Context) : Context :=
  { context with stack := context.stack.dropLast }

end Context

namespace Progress

/-- Writes a line of the trace, if there is to be one. -/
def write (isTraced : Bool) (address text : String) : EStateM Error Progress Unit :=
  modify fun progress =>
    if isTraced then { progress with trace := progress.trace ++ [Trace.line address text] }
    else progress

/-- Notes a clause that failed. -/
def record (clause : Clause) : EStateM Error Progress Unit :=
  modify fun progress => { progress with failed := progress.failed ++ [clause] }

/-- Puts the event of a clause, if it has one, in place of that of the rule. -/
def replace (event : Option Event) : EStateM Error Progress Unit :=
  modify fun progress => { progress with override := event.or progress.override }

/-- The rules that were asked, when one more is. -/
def noted (known : List String) (rule : String) : List String :=
  if rule ∈ known then known else known ++ [rule]

/-- Notes a rule that is asked, once. -/
def depend (rule : String) : EStateM Error Progress Unit :=
  modify fun progress => { progress with dependencies := noted progress.dependencies rule }

variable {α : Type}

/-- A step between rules, taken inside a rule. -/
def outside (step : EStateM Error Context α) : EStateM Error Progress α :=
  fun progress =>
    match step progress.toContext with
    | .ok value context => .ok value { progress with toContext := context }
    | .error error context => .error error { progress with toContext := context }

/-- A step inside a rule that was entered. The rule starts without notes, and is
left whether or not the step fails. -/
def inside (step : EStateM Error Progress α) : EStateM Error Context (α × Scratch) :=
  fun context =>
    match step { context with } with
    | .ok value progress => .ok (value, progress.toScratch) progress.leave
    | .error error progress => .error error progress.leave

end Progress

namespace Leaf

/-- Evaluates a leaf: finds its operator, then the fact, and compares. -/
def evaluate (executor : Executor) (address : String) (leaf : Leaf) :
    EStateM Error Progress Bool := do
  let operator ← MonadExcept.ofExcept leaf.operator?
  let fact ← MonadExcept.ofExcept (executor.facts.get leaf.fact leaf.path)
  let matched ← MonadExcept.ofExcept (operator.evaluate fact leaf.value)
  Progress.write executor.isTraced address (Trace.leafText leaf operator.name matched)
  return matched

end Leaf

namespace Condition

/-- Evaluates a reference, given how a rule is evaluated. -/
def evaluateReference (executor : Executor) (follow : Rule → EStateM Error Context Evaluation)
    (address name : String) : EStateM Error Progress Bool :=
  match executor.registry.get? name with
  | none => throw (.unknownRule name)
  | some rule => do
    Progress.depend name
    let evaluation ← Progress.outside (follow rule)
    Progress.write executor.isTraced address (Trace.referenceText name evaluation.verdict)
    return evaluation.verdict

mutual

/-- Evaluates a condition, given how a rule is evaluated. -/
def evaluate (executor : Executor) (follow : Rule → EStateM Error Context Evaluation)
    (address : String) : Condition → EStateM Error Progress Bool
  | .all clauses => evaluateAll executor follow address 0 none clauses
  | .any clauses => evaluateAny executor follow address 0 clauses
  | .not child => do
    let negated ← evaluate executor follow (Trace.childAddress address) child
    Progress.write executor.isTraced address (Trace.negationText !negated)
    return !negated
  | .reference name => evaluateReference executor follow address name
  | .leaf comparison => comparison.evaluate executor address

/-- Evaluates clauses of which all must hold, from the given index on, up to the
first one that does not hold. If all hold, the last one gives its event. -/
def evaluateAll (executor : Executor) (follow : Rule → EStateM Error Context Evaluation)
    (address : String) (index : Nat) (last : Option Event) :
    List Clause → EStateM Error Progress Bool
  | [] => do
    Progress.replace last
    Progress.write executor.isTraced address (Trace.allText none)
    return true
  | ⟨name, event, condition⟩ :: rest => do
    let holds ← evaluate executor follow (Trace.clauseAddress address "all" index) condition
    if holds then evaluateAll executor follow address (index + 1) event rest
    else do
      Progress.write executor.isTraced address (Trace.allText (some index))
      Progress.record ⟨name, event, condition⟩
      return false

/-- Evaluates clauses of which any must hold, from the given index on, up to the
first one that holds, which gives its event. -/
def evaluateAny (executor : Executor) (follow : Rule → EStateM Error Context Evaluation)
    (address : String) (index : Nat) : List Clause → EStateM Error Progress Bool
  | [] => do
    Progress.write executor.isTraced address (Trace.anyText none)
    return false
  | ⟨name, event, condition⟩ :: rest => do
    let holds ← evaluate executor follow (Trace.clauseAddress address "any" index) condition
    if holds then do
      Progress.replace event
      Progress.write executor.isTraced address (Trace.anyText (some index))
      return true
    else do
      Progress.record ⟨name, event, condition⟩
      evaluateAny executor follow address (index + 1) rest

end

end Condition

namespace Rule

/-- What a rule came to, without a trace. A rule that holds gives out the event
that was put in place of its own, if there is one. -/
def evaluation (rule : Rule) (verdict : Bool) (scratch : Scratch) : Evaluation where
  rule := rule.name
  verdict := verdict
  event := if verdict then scratch.override.getD rule.event else rule.failureEvent
  failedConditions := scratch.failed
  dependencies := scratch.dependencies
  trace := []

end Rule

namespace Executor

/-- Evaluates a rule at the end of the stack. The recursion is on a bound of the
rules that are entered one inside the other; a stack that is not full leaves it
above zero. -/
def evaluateRule (executor : Executor) : (bound : Nat) → Rule → EStateM Error Context Evaluation
  | 0, _ => throw (.depthExceeded (executor.maxDepth + 1) executor.maxDepth)
  | bound + 1, rule => do
    Context.enter executor.maxDepth rule.name
    let (verdict, scratch) ← Progress.inside
      (rule.condition.evaluate executor (executor.evaluateRule bound) rule.name)
    return rule.evaluation verdict scratch

/-- Evaluates a rule, which need not be registered. -/
def execute (executor : Executor) (rule : Rule) : Except Error Evaluation :=
  match executor.evaluateRule (executor.maxDepth + 1) rule {} with
  | .ok evaluation context => .ok { evaluation with trace := context.trace }
  | .error error _ => .error error

/-- Evaluates the registered rule of a name. -/
def executeByName (executor : Executor) (name : String) : Except Error Evaluation := do
  let rule ← executor.registry.get name
  executor.execute rule

end Executor

end Verdict
