import Verdict.Proofs.Agreement
import Verdict.Proofs.ReferenceChain

/-!
# Executors that resemble each other

An execution asks three things of its executor: what comes of a comparison, which rule
has a name, and how deep references may go. It asks the first two only for rules to which
references lead from the executed one. Executors that answer alike come to the same.

Some errors may be excused, as for visits. Where the first execution fails for one of
them, nothing is said of the second one.
-/

namespace Verdict
namespace Executor

variable {excused : Error → Prop} {executor other : Executor} {executed rule : Rule}
  {chain : List String}

/-- Another executor answers as the first one does whatever an execution of a rule may
ask, unless the first one answers with an error that is excused. -/
structure Resembles (excused : Error → Prop) (executor other : Executor) (executed : Rule) :
    Prop where
  traced : other.isTraced = executor.isTraced
  limited : other.maxDepth = executor.maxDepth ∨
    executor.maxDepth ≤ other.maxDepth ∧ ∀ depth, excused (.depthExceeded depth executor.maxDepth)
  compared : ∀ rule, executor.registry.Reaches executed rule →
    ∀ comparison, rule.condition.Compares comparison →
      Persists excused (comparison.matches? executor.facts) (comparison.matches? other.facts)
  named : ∀ rule, executor.registry.Reaches executed rule →
    ∀ name, rule.condition.Mentions name →
      other.registry.get? name = executor.registry.get? name ∨
        executor.registry.get? name = none ∧ excused (.unknownRule name)

namespace Resembles

/-- The other executor has room where the first one has. -/
theorem le_maxDepth
    (resembles : executor.Resembles excused other executed) :
    executor.maxDepth ≤ other.maxDepth :=
  resembles.limited.elim (fun same => same.ge) And.left

/-- What a visit to a rule comes to persists. -/
theorem visitFrom_persists
    (resembles : executor.Resembles excused other executed)
    (approached : executor.Approached executed chain rule) :
    Persists excused (executor.visitFrom chain rule) (other.visitFrom chain rule) := by
  -- both visits enter the same rules, as long as no error is excused
  induction chain, rule using visitFrom.induct executor with
  | case1 chain rule entered =>
    rw [visitFrom, visitFrom, if_pos entered, if_pos entered]
    exact .of_eq rfl
  | case2 chain rule isNew full =>
    rw [visitFrom, if_neg isNew, if_pos full]
    rcases resembles.limited with same | ⟨_, isExcused⟩
    · rw [visitFrom, if_neg isNew, same, if_pos full]
      exact .of_eq rfl
    · exact .of_excused (isExcused _)
  | case3 chain rule isNew room inductionHypothesis =>
    have otherRoom : ¬other.maxDepth ≤ chain.length :=
      fun full => room (Nat.le_trans resembles.le_maxDepth full)
    have reached := approached.reaches isNew
    rw [visitFrom, visitFrom, if_neg isNew, if_neg isNew, if_neg room, if_neg otherRoom]
    refine Condition.visit_persists (resembles.compared rule reached) fun name mentions => ?_
    unfold Registry.follow
    rcases resembles.named rule reached name mentions with same | ⟨unknown, isExcused⟩
    · rw [same]
      cases found : executor.registry.get? name with
      | none => exact .of_eq rfl
      | some next =>
        obtain ⟨_, rfl⟩ := Registry.get?_eq_some_iff.1 found
        exact inductionHypothesis next (approached.next isNew room found mentions)
    · rw [unknown]
      exact .of_excused isExcused

/-- What an execution comes to persists. -/
theorem execute_persists
    (resembles : executor.Resembles excused other executed) :
    Persists excused (executor.execute executed) (other.execute executed) := by
  rw [execute_eq_visit, execute_eq_visit, resembles.traced]
  exact (resembles.visitFrom_persists .start).map _

end Resembles
end Executor
end Verdict
