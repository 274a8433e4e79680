import Verdict.Proofs.Resemblance

/-!
# The limit of depth

How deep references may go is a setting of the execution, and it only ever turns an
answer into the error that says that it was not enough. An execution that does not
exceed its limit comes to the same under any higher one, and no execution exceeds a
limit that is greater than the number of registered rules.

An execution ends for the same reason, whatever its limit is: rules that are evaluated
one inside the other have distinct names, so there are no more of them than registered
rules and the one that is executed.
-/

namespace Verdict

/-- An error that says that the limit was not enough. -/
def Error.IsDepthExceeded (error : Error) : Prop :=
  ∃ depth limit, error = .depthExceeded depth limit

namespace Executor

variable {executor : Executor}

/-- What an execution comes to persists under a higher limit, unless it exceeds its own. -/
theorem execute_persists
    {limit : Nat}
    (higher : executor.maxDepth ≤ limit)
    (rule : Rule) :
    Persists Error.IsDepthExceeded (executor.execute rule)
      ({ executor with maxDepth := limit }.execute rule) :=
  Resembles.execute_persists
    { traced := rfl
      limited := .inr ⟨higher, fun depth => ⟨depth, _, rfl⟩⟩
      compared := fun _ _ _ _ => .of_eq rfl
      named := fun _ _ _ _ => .inl rfl }

/-- An execution that exceeds its limit goes through more rules than it. -/
theorem maxDepth_le_size
    {rule : Rule}
    {depth limit : Nat}
    (failed : executor.execute rule = .error (.depthExceeded depth limit)) :
    executor.maxDepth ≤ executor.registry.size := by
  obtain ⟨sameLimit, _, chain, long, distinct, _, _, known⟩ :=
    blamesReferences_of_execute failed fun _ => id
  have shorter := (List.subperm_of_subset distinct known).length_le
  rw [long, sameLimit, List.length_cons, Registry.names, List.length_map] at shorter
  exact Nat.le_of_succ_le_succ shorter

/-- Executions end, and their limit only ever decides whether they exceed it. An execution
comes to the same within every bound on the rules inside each other that is beyond the
limit or beyond the number of registered rules and one more. If it does not exceed its
limit, it comes to the same under every higher one. It does not exceed a limit that is
greater than the number of registered rules. -/
theorem execute_ends_and_persists
    (executor : Executor)
    (rule : Rule) :
    (∀ bound, min executor.maxDepth (executor.registry.size + 1) < bound →
      executor.executeWithin bound rule = executor.execute rule) ∧
    (∀ limit, executor.maxDepth ≤ limit →
      (∀ depth most, executor.execute rule ≠ .error (.depthExceeded depth most)) →
      { executor with maxDepth := limit }.execute rule = executor.execute rule) ∧
    (executor.registry.size + 1 ≤ executor.maxDepth →
      ∀ depth most, executor.execute rule ≠ .error (.depthExceeded depth most)) := by
  refine ⟨?ends, ?persists, ?deep⟩
  case ends =>
    intro bound enough
    rw [executeWithin_eq_visit enough, execute_eq_visit]
  case persists =>
    intro limit higher within
    apply execute_persists higher rule
    rintro error failed ⟨depth, most, rfl⟩
    exact within depth most failed
  case deep =>
    intro enough depth most failed
    exact absurd (maxDepth_le_size failed) (Nat.not_le.2 enough)

end Executor
end Verdict
