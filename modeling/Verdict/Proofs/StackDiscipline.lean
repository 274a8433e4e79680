import Verdict.Proofs.EvaluationSteps

/-!
# The discipline of the stack

A rule that is entered is left again, also when an error is passed on. So whatever an
evaluation comes to, it leaves the stack as it found it, and the references after it are
followed from the same stack as those before.

All that an evaluation does to the stack are its steps. No step puts a name on the stack
that is there already, or more names than there may be, so at no moment are there any.
-/

namespace Verdict
namespace Executor

variable {executor : Executor}

/-- A stack with which a rule may be evaluated: its names are distinct, and not more than there
may be. -/
structure Allows (executor : Executor) (stack : List String) : Prop where
  distinct : stack.Nodup
  fits : stack.length ≤ executor.maxDepth

theorem Allows.move
    {before after : Moment}
    (allows : executor.Allows before.stack)
    (moves : before.Moves executor.maxDepth after) :
    executor.Allows after.stack := by
  cases moves with
  | stays sameStack => exact sameStack ▸ allows
  | enters isNew room longer =>
    rw [longer, ← List.concat_eq_append]
    refine ⟨List.Nodup.concat isNew allows.distinct, ?_⟩
    rw [List.length_concat]
    exact Nat.lt_of_not_le room
  | leaves shorter =>
    have isSublist := List.dropLast_sublist before.stack
    rw [shorter]
    exact ⟨allows.distinct.sublist isSublist, isSublist.length_le.trans allows.fits⟩

/-- An evaluation that begins at one moment ends at another, with the stack with which it began.
At every moment until then the names on the stack are distinct, and not more than there may be. -/
structure KeepsStack (executor : Executor) (first last : Moment) : Prop where
  ends : last ∈ StateTransition.eval executor.advance first
  restored : last.stack = first.stack
  distinct : ∀ moment, StateTransition.Reaches executor.advance first moment →
    moment.stack.Nodup
  fits : ∀ moment, StateTransition.Reaches executor.advance first moment →
    moment.stack.length ≤ executor.maxDepth

theorem Allows.keepsStack
    {first last : Task}
    (allows : executor.Allows first.stack)
    (reaches : StateTransition.Reaches executor.advance ⟨first, []⟩ ⟨last, []⟩)
    (atEnd : executor.advance ⟨last, []⟩ = none) :
    executor.KeepsStack ⟨first, []⟩ ⟨last, []⟩ := by
  have throughout : ∀ moment, StateTransition.Reaches executor.advance ⟨first, []⟩ moment →
      executor.Allows moment.stack := by
    intro moment reached
    exact kept_of_reaches (fun _ _ moves allows => Allows.move allows moves) reached allows
  exact
    { ends := StateTransition.mem_eval.2 ⟨reaches, atEnd⟩
      restored := stack_eq_of_reaches reaches
      distinct := fun moment reached => (throughout moment reached).distinct
      fits := fun moment reached => (throughout moment reached).fits }

/-- Whatever the evaluation of a rule or of a condition comes to, it leaves the stack as it was,
and until then the names on the stack are distinct and not more than there may be. The stack
with which it begins is any such stack, and the bound is one with which the stack can grow to its
limit. -/
theorem stack_is_kept
    {stack : List String}
    (distinct : stack.Nodup)
    (fits : stack.length ≤ executor.maxDepth)
    {bound : Nat}
    (enough : executor.maxDepth < stack.length + bound) :
    (∀ rule context, context.stack = stack →
      executor.KeepsStack ⟨.rule rule context, []⟩
        ⟨.evaluation (executor.evaluateRule bound rule context), []⟩) ∧
    ∀ condition address progress, progress.stack = stack →
      executor.KeepsStack ⟨.condition address condition progress, []⟩
        ⟨.verdict (condition.evaluate executor (executor.evaluateRule bound) address progress),
          []⟩ := by
  have followReaches : executor.FollowsInSteps (executor.evaluateRule bound) stack := by
    rintro rule context pending rfl
    exact reaches_evaluateRule bound rule context pending fits enough
  constructor
  · intro rule context atStack
    have allows : executor.Allows context.stack := atStack ▸ ⟨distinct, fits⟩
    exact allows.keepsStack (followReaches rule context [] atStack) rfl
  · intro condition address progress atStack
    have allows : executor.Allows progress.stack := atStack ▸ ⟨distinct, fits⟩
    have reaches := reaches_evaluate followReaches condition address progress [] atStack
    refine allows.keepsStack reaches ?_
    cases condition.evaluate executor (executor.evaluateRule bound) address progress <;> rfl

/-- A rule that asks nothing, and holds. -/
def still : Rule where
  name := "still"
  event := {}
  failureEvent := {}
  condition := .all []

/-- A rule that asks another one, which asks it in turn, after one that it may ask. -/
def circling (name other : String) : Rule where
  name := name
  event := {}
  failureEvent := {}
  condition := .all [.plain (.reference "still"), .plain (.not (.reference other))]

/-- An executor with two rules that ask each other, and with room for four. -/
def roundabout : Executor where
  registry := (Registry.empty.registerAll
    [still, circling "left" "right", circling "right" "left"]).1
  facts := .empty
  maxDepth := 4

/-- A caller is alone on the stack after a rule in a circle failed, and after a condition held for
which another rule was entered. -/
theorem roundabout_keeps_caller :
    (["caller"].Nodup ∧ ["caller"].length ≤ roundabout.maxDepth ∧
      roundabout.maxDepth < ["caller"].length + 4) ∧
    roundabout.KeepsStack ⟨.rule (circling "left" "right") { stack := ["caller"] }, []⟩
      ⟨.evaluation (.error (.circularReference ["left", "right", "left"])
        { stack := ["caller"] }), []⟩ ∧
    roundabout.KeepsStack ⟨.condition "caller" (.reference "still") { stack := ["caller"] }, []⟩
      ⟨.verdict (.ok true { stack := ["caller"], dependencies := ["still"] }), []⟩ := by
  have failed : roundabout.evaluateRule 4 (circling "left" "right") { stack := ["caller"] } =
      .error (.circularReference ["left", "right", "left"]) { stack := ["caller"] } := rfl
  have held : (Condition.reference "still").evaluate roundabout (roundabout.evaluateRule 4) "caller"
      { stack := ["caller"] } = .ok true { stack := ["caller"], dependencies := ["still"] } := rfl
  have distinct : ["caller"].Nodup := by decide
  have fits : ["caller"].length ≤ roundabout.maxDepth := by decide
  have enough : roundabout.maxDepth < ["caller"].length + 4 := by decide
  obtain ⟨ruleKeeps, conditionKeeps⟩ := stack_is_kept distinct fits enough
  exact ⟨⟨distinct, fits, enough⟩, failed ▸ ruleKeeps (circling "left" "right") _ rfl,
    held ▸ conditionKeeps (.reference "still") "caller" _ rfl⟩

end Executor
end Verdict
