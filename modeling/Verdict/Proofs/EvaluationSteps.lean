import Mathlib.Computability.StateTransition
import Verdict.Proofs.Execution

/-!
# Evaluations, one step at a time

The evaluation of a condition calls itself for the parts of the condition and for the
rules to which it refers. Here these calls are laid out as the steps of a machine. What
awaits the result of a part is pending, so all that an evaluation goes through are
moments of the machine.

A step leaves the stack alone, enters a rule, or leaves the rule that was entered last.
The machine comes to what the evaluation comes to, be it a value or an error, and with
the same stack, trace and notes.
-/

namespace Verdict

/-! ## Moments -/

/-- What awaits the verdict on a condition, or the evaluation of a rule. -/
inductive Pending where
  | not (address : String)
  | all (address : String) (index : Nat) (clause : Clause) (rest : List Clause)
  | any (address : String) (index : Nat) (clause : Clause) (rest : List Clause)
  | body (rule : Rule)
  | reference (address name : String) (scratch : Scratch)

/-- What is to be evaluated next, or what came of what was evaluated last. -/
inductive Task where
  | condition (address : String) (condition : Condition) (progress : Progress)
  | all (address : String) (index : Nat) (last : Option Event) (clauses : List Clause)
      (progress : Progress)
  | any (address : String) (index : Nat) (clauses : List Clause) (progress : Progress)
  | rule (rule : Rule) (context : Context)
  | verdict (outcome : EStateM.Result Error Progress Bool)
  | evaluation (outcome : EStateM.Result Error Context Evaluation)

/-- A moment of an evaluation: a task, and what is pending, the innermost first. -/
structure Moment where
  task : Task
  pending : List Pending

/-- The stack with which a task is taken up, or which it left behind when it succeeded or
failed. -/
def Task.stack : Task → List String
  | .condition _ _ progress => progress.stack
  | .all _ _ _ _ progress => progress.stack
  | .any _ _ _ progress => progress.stack
  | .rule _ context => context.stack
  | .verdict (.ok _ progress) => progress.stack
  | .verdict (.error _ progress) => progress.stack
  | .evaluation (.ok _ context) => context.stack
  | .evaluation (.error _ context) => context.stack

/-- The rules whose bodies are pending, the outermost one first. -/
def Pending.entered : List Pending → List String
  | [] => []
  | .body rule :: pending => entered pending ++ [rule.name]
  | _ :: pending => entered pending

namespace Moment

/-- The stack at a moment. -/
def stack (moment : Moment) : List String :=
  moment.task.stack

/-- The rules that were entered since the evaluation began, and not left. -/
def entered (moment : Moment) : List String :=
  Pending.entered moment.pending

end Moment

/-! ## Steps -/

namespace Executor

/-- Begins to evaluate a condition. -/
def startCondition (executor : Executor) (address : String) (progress : Progress)
    (pending : List Pending) : Condition → Moment
  | .all clauses => ⟨.all address 0 none clauses progress, pending⟩
  | .any clauses => ⟨.any address 0 clauses progress, pending⟩
  | .not child =>
    ⟨.condition (Trace.childAddress address) child progress, .not address :: pending⟩
  | .reference name =>
    match executor.registry.get? name with
    | none => ⟨.verdict (.error (.unknownRule name) progress), pending⟩
    | some rule =>
      ⟨.rule rule progress.toContext, .reference address name
        { progress with dependencies := Progress.noted progress.dependencies name } :: pending⟩
  | .leaf comparison => ⟨.verdict (comparison.evaluate executor address progress), pending⟩

/-- Goes on with clauses of which all must hold. -/
def startAll (executor : Executor) (address : String) (index : Nat) (last : Option Event)
    (progress : Progress) (pending : List Pending) : List Clause → Moment
  | [] =>
    ⟨.verdict ((do
      Progress.replace last
      Progress.write executor.isTraced address (Trace.allText none)
      return true) progress), pending⟩
  | clause :: rest =>
    ⟨.condition (Trace.clauseAddress address "all" index) clause.condition progress,
      .all address index clause rest :: pending⟩

/-- Goes on with clauses of which any must hold. -/
def startAny (executor : Executor) (address : String) (index : Nat) (progress : Progress)
    (pending : List Pending) : List Clause → Moment
  | [] =>
    ⟨.verdict ((do
      Progress.write executor.isTraced address (Trace.anyText none)
      return false) progress), pending⟩
  | clause :: rest =>
    ⟨.condition (Trace.clauseAddress address "any" index) clause.condition progress,
      .any address index clause rest :: pending⟩

/-- Begins to evaluate a rule, which must be one that may be entered. -/
def startRule (executor : Executor) (context : Context) (pending : List Pending)
    (rule : Rule) : Moment :=
  match Context.enter executor.maxDepth rule.name context with
  | .error error refused => ⟨.evaluation (.error error refused), pending⟩
  | .ok _ entered =>
    ⟨.condition rule.name rule.condition { entered with }, .body rule :: pending⟩

/-- Gives a verdict to what awaits it. -/
def receiveVerdict (executor : Executor) (verdict : Bool) (progress : Progress) :
    List Pending → Option Moment
  | .not address :: pending =>
    some ⟨.verdict ((do
      Progress.write executor.isTraced address (Trace.negationText !verdict)
      return !verdict) progress), pending⟩
  | .all address index clause rest :: pending =>
    if verdict then some ⟨.all address (index + 1) clause.event rest progress, pending⟩
    else some ⟨.verdict ((do
      Progress.write executor.isTraced address (Trace.allText (some index))
      Progress.record clause
      return false) progress), pending⟩
  | .any address index clause rest :: pending =>
    if verdict then some ⟨.verdict ((do
      Progress.replace clause.event
      Progress.write executor.isTraced address (Trace.anyText (some index))
      return true) progress), pending⟩
    else some ⟨.any address (index + 1) rest
      { progress with failed := progress.failed ++ [clause] }, pending⟩
  | .body rule :: pending =>
    some ⟨.evaluation (.ok (rule.evaluation verdict progress.toScratch) progress.leave), pending⟩
  | _ => none

/-- Passes on an error in a condition. The rule is left for an error, too. -/
def receiveError (error : Error) (progress : Progress) : List Pending → Option Moment
  | .not _ :: pending => some ⟨.verdict (.error error progress), pending⟩
  | .all _ _ _ _ :: pending => some ⟨.verdict (.error error progress), pending⟩
  | .any _ _ _ _ :: pending => some ⟨.verdict (.error error progress), pending⟩
  | .body _ :: pending => some ⟨.evaluation (.error error progress.leave), pending⟩
  | _ => none

/-- Gives what a rule came to to the reference that awaits it. -/
def receiveEvaluation (executor : Executor) (outcome : EStateM.Result Error Context Evaluation) :
    List Pending → Option Moment
  | .reference address name scratch :: pending =>
    match outcome with
    | .ok evaluation context =>
      some ⟨.verdict ((do
        Progress.write executor.isTraced address (Trace.referenceText name evaluation.verdict)
        return evaluation.verdict) { context, scratch with }), pending⟩
    | .error error context => some ⟨.verdict (.error error { context, scratch with }), pending⟩
  | _ => none

/-- The next moment of an evaluation, unless it has come to its end. -/
def advance (executor : Executor) : Moment → Option Moment
  | ⟨.condition address condition progress, pending⟩ =>
    some (executor.startCondition address progress pending condition)
  | ⟨.all address index last clauses progress, pending⟩ =>
    some (executor.startAll address index last progress pending clauses)
  | ⟨.any address index clauses progress, pending⟩ =>
    some (executor.startAny address index progress pending clauses)
  | ⟨.rule rule context, pending⟩ => some (executor.startRule context pending rule)
  | ⟨.verdict (.ok verdict progress), pending⟩ => executor.receiveVerdict verdict progress pending
  | ⟨.verdict (.error error progress), pending⟩ => receiveError error progress pending
  | ⟨.evaluation outcome, pending⟩ => executor.receiveEvaluation outcome pending

end Executor

/-! ## What a step does to the stack -/

/-- A rule that may be entered is not on the stack, has room there, and comes to its end. -/
theorem Context.of_enter_ok
    {context entered : Context}
    {name : String}
    {limit : Nat}
    (entering : Context.enter limit name context = .ok () entered) :
    name ∉ context.stack ∧ ¬limit ≤ context.stack.length ∧
      entered.stack = context.stack ++ [name] := by
  by_cases onStack : name ∈ context.stack
  · rw [enter_of_mem onStack] at entering
    cases entering
  · by_cases full : limit ≤ context.stack.length
    · rw [enter_of_full onStack full] at entering
      cases entering
    · rw [enter_of_room onStack full] at entering
      cases entering
      exact ⟨onStack, full, rfl⟩

/-- A step leaves the stack alone, or it enters a rule that is not on the stack, if there is room,
or it leaves the rule that was entered last. -/
inductive Moment.Moves (limit : Nat) (before after : Moment) : Prop
  | stays
      (stack : after.stack = before.stack)
      (entered : after.entered = before.entered)
  | enters
      {name : String}
      (isNew : name ∉ before.stack)
      (room : ¬limit ≤ before.stack.length)
      (stack : after.stack = before.stack ++ [name])
      (entered : after.entered = before.entered ++ [name])
  | leaves
      {name : String}
      (stack : after.stack = before.stack.dropLast)
      (entered : before.entered = after.entered ++ [name])

namespace Executor

variable {executor : Executor} {progress : Progress} {pending : List Pending} {limit : Nat}
  {before after : Moment}

theorem stack_write
    (address text : String)
    (verdict : Bool)
    (progress : Progress) :
    (Task.verdict ((do
      Progress.write executor.isTraced address text
      return verdict) progress)).stack = progress.stack := by
  cases executor.isTraced <;> rfl

theorem stack_replace_write
    (event : Option Event)
    (address text : String)
    (verdict : Bool)
    (progress : Progress) :
    (Task.verdict ((do
      Progress.replace event
      Progress.write executor.isTraced address text
      return verdict) progress)).stack = progress.stack := by
  cases executor.isTraced <;> rfl

theorem stack_write_record
    (address text : String)
    (clause : Clause)
    (verdict : Bool)
    (progress : Progress) :
    (Task.verdict ((do
      Progress.write executor.isTraced address text
      Progress.record clause
      return verdict) progress)).stack = progress.stack := by
  cases executor.isTraced <;> rfl

theorem stack_leaf
    (address : String)
    (comparison : Leaf)
    (progress : Progress) :
    (Task.verdict (comparison.evaluate executor address progress)).stack = progress.stack := by
  rw [comparison.evaluate_apply]
  cases comparison.matches? executor.facts <;> rfl

theorem moves_startCondition
    (address : String)
    (condition : Condition) :
    Moment.Moves limit ⟨.condition address condition progress, pending⟩
      (executor.startCondition address progress pending condition) := by
  cases condition with
  | all clauses | any clauses | not child => exact .stays rfl rfl
  | reference name =>
    cases found : executor.registry.get? name with
    | none =>
      rw [startCondition, found]
      exact .stays rfl rfl
    | some rule =>
      rw [startCondition, found]
      exact .stays rfl rfl
  | leaf comparison => exact .stays (stack_leaf address comparison progress) rfl

theorem moves_startAll
    (address : String)
    (index : Nat)
    (last : Option Event)
    (clauses : List Clause) :
    Moment.Moves limit ⟨.all address index last clauses progress, pending⟩
      (executor.startAll address index last progress pending clauses) := by
  cases clauses with
  | nil => exact .stays (stack_replace_write ..) rfl
  | cons clause rest => exact .stays rfl rfl

theorem moves_startAny
    (address : String)
    (index : Nat)
    (clauses : List Clause) :
    Moment.Moves limit ⟨.any address index clauses progress, pending⟩
      (executor.startAny address index progress pending clauses) := by
  cases clauses with
  | nil => exact .stays (stack_write ..) rfl
  | cons clause rest => exact .stays rfl rfl

theorem moves_startRule
    (rule : Rule)
    (context : Context) :
    Moment.Moves executor.maxDepth ⟨.rule rule context, pending⟩
      (executor.startRule context pending rule) := by
  unfold startRule
  by_cases entered : rule.name ∈ context.stack
  · rw [Context.enter_of_mem entered]
    exact .stays rfl rfl
  · by_cases full : executor.maxDepth ≤ context.stack.length
    · rw [Context.enter_of_full entered full]
      exact .stays rfl rfl
    · rw [Context.enter_of_room entered full]
      exact .enters entered full rfl rfl

theorem moves_receiveVerdict
    (verdict : Bool)
    (received : after ∈ executor.receiveVerdict verdict progress pending) :
    Moment.Moves limit ⟨.verdict (.ok verdict progress), pending⟩ after := by
  cases pending with
  | nil => cases received
  | cons awaiting pending =>
    cases awaiting with
    | not address =>
      cases received
      exact .stays (stack_write ..) rfl
    | all address index clause rest =>
      cases verdict with
      | true =>
        cases received
        exact .stays rfl rfl
      | false =>
        cases received
        exact .stays (stack_write_record ..) rfl
    | any address index clause rest =>
      cases verdict with
      | true =>
        cases received
        exact .stays (stack_replace_write ..) rfl
      | false =>
        cases received
        exact .stays rfl rfl
    | body rule =>
      cases received
      exact .leaves rfl rfl
    | reference address name scratch => cases received

theorem moves_receiveError
    (error : Error)
    (received : after ∈ receiveError error progress pending) :
    Moment.Moves limit ⟨.verdict (.error error progress), pending⟩ after := by
  cases pending with
  | nil => cases received
  | cons awaiting pending =>
    cases awaiting with
    | not | all | any =>
      cases received
      exact .stays rfl rfl
    | body rule =>
      cases received
      exact .leaves rfl rfl
    | reference address name scratch => cases received

theorem moves_receiveEvaluation
    (outcome : EStateM.Result Error Context Evaluation)
    (received : after ∈ executor.receiveEvaluation outcome pending) :
    Moment.Moves limit ⟨.evaluation outcome, pending⟩ after := by
  cases pending with
  | nil => cases received
  | cons awaiting pending =>
    cases awaiting with
    | not | all | any | body => cases received
    | reference address name scratch =>
      cases outcome with
      | ok evaluation context =>
        cases received
        exact .stays (stack_write ..) rfl
      | error error context =>
        cases received
        exact .stays rfl rfl

theorem moves_of_advance
    (advanced : after ∈ executor.advance before) :
    before.Moves executor.maxDepth after := by
  obtain ⟨task, pending⟩ := before
  cases task with
  | condition address condition progress =>
    cases advanced
    exact moves_startCondition address condition
  | all address index last clauses progress =>
    cases advanced
    exact moves_startAll address index last clauses
  | any address index clauses progress =>
    cases advanced
    exact moves_startAny address index clauses
  | rule rule context =>
    cases advanced
    exact moves_startRule rule context
  | verdict outcome =>
    cases outcome with
    | ok verdict progress => exact moves_receiveVerdict verdict advanced
    | error error progress => exact moves_receiveError error advanced
  | evaluation outcome => exact moves_receiveEvaluation outcome advanced

/-- What every step keeps holds from one moment on. -/
theorem kept_of_reaches
    {predicate : Moment → Prop}
    (kept : ∀ before after : Moment,
      before.Moves executor.maxDepth after → predicate before → predicate after)
    (reaches : StateTransition.Reaches executor.advance before after)
    (holds : predicate before) :
    predicate after := by
  induction reaches with
  | refl => exact holds
  | tail _ advanced inductionHypothesis =>
    exact kept _ _ (moves_of_advance advanced) inductionHypothesis

end Executor

/-! ## What is entered is left -/

/-- The stack is the one with which an evaluation began, and behind it are the rules that were
entered since and not left. -/
def Moment.Balanced (base : List String) (moment : Moment) : Prop :=
  moment.stack = base ++ moment.entered

theorem Moment.Balanced.move
    {base : List String}
    {before after : Moment}
    {limit : Nat}
    (balanced : before.Balanced base)
    (moves : before.Moves limit after) :
    after.Balanced base := by
  unfold Balanced at balanced ⊢
  cases moves with
  | stays sameStack sameEntered => rw [sameStack, sameEntered, balanced]
  | enters _ _ longer alsoEntered => rw [longer, alsoEntered, balanced, List.append_assoc]
  | leaves shorter wasEntered =>
    rw [shorter, balanced, wasEntered, ← List.append_assoc, List.dropLast_concat]

namespace Executor

variable {executor : Executor}

/-- When nothing is pending any more, the stack is the one with which the evaluation began. -/
theorem stack_eq_of_reaches
    {first last : Task}
    (reaches : StateTransition.Reaches executor.advance ⟨first, []⟩ ⟨last, []⟩) :
    last.stack = first.stack := by
  have atStart : Moment.Balanced first.stack ⟨first, []⟩ := (List.append_nil _).symm
  have atEnd := kept_of_reaches (fun _ _ moves balanced => balanced.move moves) reaches atStart
  exact atEnd.trans (List.append_nil _)

/-! ## The steps are those of the evaluation -/

/-- From any moment with a given stack, what a rule comes to is reached step by step, whatever else
is pending. -/
def FollowsInSteps (executor : Executor) (follow : Rule → EStateM Error Context Evaluation)
    (stack : List String) : Prop :=
  ∀ rule context pending, context.stack = stack →
    StateTransition.Reaches executor.advance ⟨.rule rule context, pending⟩
      ⟨.evaluation (follow rule context), pending⟩

/-- From any moment with a given stack, what a condition comes to is reached step by step, whatever
else is pending. -/
def EvaluatesInSteps (executor : Executor) (follow : Rule → EStateM Error Context Evaluation)
    (stack : List String) (condition : Condition) : Prop :=
  ∀ address progress pending, progress.stack = stack →
    StateTransition.Reaches executor.advance ⟨.condition address condition progress, pending⟩
      ⟨.verdict (condition.evaluate executor follow address progress), pending⟩

variable {follow : Rule → EStateM Error Context Evaluation} {stack : List String}

/-- A condition leaves the stack to those after it as it was. -/
theorem EvaluatesInSteps.stack_of_ok
    {condition : Condition}
    (reaches : executor.EvaluatesInSteps follow stack condition)
    {address : String}
    {progress later : Progress}
    {verdict : Bool}
    (atStack : progress.stack = stack)
    (ran : condition.evaluate executor follow address progress = .ok verdict later) :
    later.stack = stack := by
  -- it does so whatever else is pending, so it is enough to look at it with nothing pending
  have alone := reaches address progress [] atStack
  rw [ran] at alone
  exact (stack_eq_of_reaches alone).trans atStack

/-- The loop over clauses of which all must hold takes its steps one by one. -/
theorem reaches_evaluateAll
    (address : String)
    {clauses : List Clause}
    (clausesReach : ∀ clause ∈ clauses,
      executor.EvaluatesInSteps follow stack clause.condition)
    (index : Nat)
    (last : Option Event)
    (progress : Progress)
    (pending : List Pending)
    (atStack : progress.stack = stack) :
    StateTransition.Reaches executor.advance ⟨.all address index last clauses progress, pending⟩
      ⟨.verdict (Condition.evaluateAll executor follow address index last clauses progress),
        pending⟩ := by
  induction clauses generalizing index last progress with
  | nil =>
    rw [Condition.evaluateAll]
    exact .single rfl
  | cons clause rest inductionHypothesis =>
    obtain ⟨clauseReaches, restReach⟩ := List.forall_mem_cons.1 clausesReach
    have reaches := clauseReaches (Trace.clauseAddress address "all" index) progress
      (.all address index clause rest :: pending) atStack
    refine .head rfl (reaches.trans ?_)
    obtain ⟨name, event, condition⟩ := clause
    rw [Condition.evaluateAll]
    cases ran : condition.evaluate executor follow (Trace.clauseAddress address "all" index)
      progress with
    | error error later =>
      rw [bind_apply_of_error ran]
      exact .single rfl
    | ok holds later =>
      rw [bind_apply_of_ok ran]
      cases holds with
      | false => exact .single rfl
      | true =>
        have sameStack := clauseReaches.stack_of_ok atStack ran
        exact .head rfl (inductionHypothesis restReach (index + 1) event later sameStack)

/-- The loop over clauses of which any must hold takes its steps one by one. -/
theorem reaches_evaluateAny
    (address : String)
    {clauses : List Clause}
    (clausesReach : ∀ clause ∈ clauses,
      executor.EvaluatesInSteps follow stack clause.condition)
    (index : Nat)
    (progress : Progress)
    (pending : List Pending)
    (atStack : progress.stack = stack) :
    StateTransition.Reaches executor.advance ⟨.any address index clauses progress, pending⟩
      ⟨.verdict (Condition.evaluateAny executor follow address index clauses progress),
        pending⟩ := by
  induction clauses generalizing index progress with
  | nil =>
    rw [Condition.evaluateAny]
    exact .single rfl
  | cons clause rest inductionHypothesis =>
    obtain ⟨clauseReaches, restReach⟩ := List.forall_mem_cons.1 clausesReach
    have reaches := clauseReaches (Trace.clauseAddress address "any" index) progress
      (.any address index clause rest :: pending) atStack
    refine .head rfl (reaches.trans ?_)
    obtain ⟨name, event, condition⟩ := clause
    rw [Condition.evaluateAny]
    cases ran : condition.evaluate executor follow (Trace.clauseAddress address "any" index)
      progress with
    | error error later =>
      rw [bind_apply_of_error ran]
      exact .single rfl
    | ok holds later =>
      rw [bind_apply_of_ok ran]
      cases holds with
      | true => exact .single rfl
      | false =>
        have sameStack := clauseReaches.stack_of_ok atStack ran
        exact .head rfl (inductionHypothesis restReach (index + 1)
          { later with failed := later.failed ++ [⟨name, event, condition⟩] } sameStack)

/-- A reference takes the steps of the rule that it names. -/
theorem reaches_evaluateReference
    (followReaches : executor.FollowsInSteps follow stack)
    (name : String) :
    executor.EvaluatesInSteps follow stack (.reference name) := by
  intro address progress pending atStack
  rw [Condition.evaluate, Condition.evaluateReference]
  cases found : executor.registry.get? name with
  | none =>
    have begins : executor.advance ⟨.condition address (.reference name) progress, pending⟩ =
        some ⟨.verdict (.error (.unknownRule name) progress), pending⟩ := by
      rw [advance, startCondition, found]
    exact .single begins
  | some rule =>
    obtain ⟨noted, isNoted⟩ : ∃ noted : Progress, noted =
        { progress with dependencies := Progress.noted progress.dependencies name } := ⟨_, rfl⟩
    have begins : executor.advance ⟨.condition address (.reference name) progress, pending⟩ =
        some ⟨.rule rule noted.toContext,
          .reference address name noted.toScratch :: pending⟩ := by
      rw [advance, startCondition, found, isNoted]
    have depended : Progress.depend name progress = .ok () noted := isNoted ▸ rfl
    have sameStack : noted.stack = stack := isNoted ▸ atStack
    refine .head begins ((followReaches rule noted.toContext _ sameStack).trans ?_)
    simp only
    rw [bind_apply_of_ok depended]
    cases ran : follow rule noted.toContext with
    | error error later =>
      rw [bind_apply_of_error (Progress.outside_of_error ran)]
      exact .single rfl
    | ok evaluation later =>
      rw [bind_apply_of_ok (Progress.outside_of_ok ran)]
      exact .single rfl

/-- The evaluation of a condition takes its steps one by one. -/
theorem reaches_evaluate
    (followReaches : executor.FollowsInSteps follow stack)
    (condition : Condition) :
    executor.EvaluatesInSteps follow stack condition := by
  induction condition with
  | all clauses clausesReach =>
    intro address progress pending atStack
    rw [Condition.evaluate]
    exact .head rfl (reaches_evaluateAll address clausesReach 0 none progress pending atStack)
  | any clauses clausesReach =>
    intro address progress pending atStack
    rw [Condition.evaluate]
    exact .head rfl (reaches_evaluateAny address clausesReach 0 progress pending atStack)
  | not child inductionHypothesis =>
    intro address progress pending atStack
    have reaches := inductionHypothesis (Trace.childAddress address) progress
      (.not address :: pending) atStack
    rw [Condition.evaluate]
    refine .head rfl (reaches.trans ?_)
    cases ran : child.evaluate executor follow (Trace.childAddress address) progress with
    | error error later =>
      rw [bind_apply_of_error ran]
      exact .single rfl
    | ok negated later =>
      rw [bind_apply_of_ok ran]
      exact .single rfl
  | reference name => exact reaches_evaluateReference followReaches name
  | leaf comparison =>
    intro address progress pending _
    rw [Condition.evaluate]
    exact .single rfl

/-- The evaluation of a rule takes its steps one by one, if the bound is one with which the stack
can grow to its limit. -/
theorem reaches_evaluateRule
    (bound : Nat)
    (rule : Rule)
    (context : Context)
    (pending : List Pending)
    (fits : context.stack.length ≤ executor.maxDepth)
    (enough : executor.maxDepth < context.stack.length + bound) :
    StateTransition.Reaches executor.advance ⟨.rule rule context, pending⟩
      ⟨.evaluation (executor.evaluateRule bound rule context), pending⟩ := by
  -- each rule that is entered takes one from the bound and adds one to the stack
  induction bound generalizing rule context pending with
  | zero => exact absurd enough (Nat.not_lt.2 fits)
  | succ bound inductionHypothesis =>
    rw [evaluateRule]
    cases entering : Context.enter executor.maxDepth rule.name context with
    | error error refused =>
      have begins : executor.advance ⟨.rule rule context, pending⟩ =
          some ⟨.evaluation (.error error refused), pending⟩ := by
        rw [advance, startRule, entering]
      rw [bind_apply_of_error entering]
      exact .single begins
    | ok _ entered =>
      have begins : executor.advance ⟨.rule rule context, pending⟩ =
          some ⟨.condition rule.name rule.condition { entered with },
            .body rule :: pending⟩ := by
        rw [advance, startRule, entering]
      obtain ⟨_, room, isLonger⟩ := Context.of_enter_ok entering
      have longer : entered.stack.length = context.stack.length + 1 := by simp [isLonger]
      have followReaches :
          executor.FollowsInSteps (executor.evaluateRule bound) entered.stack := by
        intro other inner pending sameStack
        rw [← sameStack] at longer
        exact inductionHypothesis other inner pending (by omega) (by omega)
      have reaches := reaches_evaluate followReaches rule.condition rule.name { entered with }
        (.body rule :: pending) rfl
      rw [bind_apply_of_ok entering]
      refine .head begins (reaches.trans ?_)
      cases ran : rule.condition.evaluate executor (executor.evaluateRule bound) rule.name
        { entered with } with
      | error error later =>
        rw [bind_apply_of_error (Progress.inside_of_error ran)]
        exact .single rfl
      | ok verdict later =>
        rw [bind_apply_of_ok (Progress.inside_of_ok ran)]
        exact .single rfl

end Executor
end Verdict
