import Verdict.Proofs.ReferenceChain

/-!
# Names of operators

A leaf writes its operator by name, and any text may stand for the name. Whether an operator has
it shows when a condition is explained, and when the leaf is evaluated.

An explanation looks at every leaf, an execution only at those that it gets to. So a condition is
explained exactly if every leaf in it names an operator, and otherwise the error is that of the
leftmost leaf that does not. If the executed rule and all registered rules can be explained, no
execution fails for an unknown operator. An execution that does has come to a leaf that names it,
in the executed rule or in one to which references lead from it, and that rule has no
explanation.
-/

namespace Verdict

/-! ## Leaves -/

/-- The names of all operators. -/
def Operator.names : List String :=
  all.map name

example : Operator.names =
    ["equal", "lessThan", "lessThanInclusive", "greaterThan", "greaterThanInclusive", "in",
      "notIn", "contains"] := rfl

theorem Operator.ofName?_eq_none_iff {text : String} : ofName? text = none ↔ text ∉ names := by
  simp [ofName?, names]

namespace Leaf

variable {leaf : Leaf} {error : Error}

theorem exists_operator?_iff :
    (∃ operator, leaf.operator? = .ok operator) ↔ leaf.operator ∈ Operator.names := by
  rw [← not_iff_not, ← Operator.ofName?_eq_none_iff, operator?]
  cases Operator.ofName? leaf.operator <;> simp

theorem operator?_eq_error_iff :
    leaf.operator? = .error error ↔
      leaf.operator ∉ Operator.names ∧ error = .unknownOperator leaf.operator := by
  rw [← Operator.ofName?_eq_none_iff, operator?]
  cases Operator.ofName? leaf.operator <;> simp [eq_comm]

/-- Only the name of the operator makes a leaf fail for an unknown one. -/
theorem operator?_of_matches?
    {facts : Facts}
    {name : String}
    (failed : leaf.matches? facts = .error (.unknownOperator name)) :
    leaf.operator? = .error (.unknownOperator name) := by
  rcases error_of_bind failed with inOperator | ⟨operator, _, failed⟩
  · exact inOperator
  · rcases error_of_bind failed with inFacts | ⟨fact, _, failed⟩
    · obtain ⟨path, _, isError⟩ := Facts.error_of_get inFacts
      exact nomatch isError
    · obtain ⟨mismatch, isError⟩ := Operator.error_of_compare failed
      exact nomatch isError

end Leaf

/-! ## Explanations -/

section

variable {α β γ δ : Type} {first : Except Error α} {second : Except Error β}

/-- Two steps fail alike: with the same error, if one of them fails. -/
def FailAlike (first : Except Error α) (second : Except Error β) : Prop :=
  ∀ error, first = .error error ↔ second = .error error

namespace FailAlike

theorem map_left
    (failAlike : FailAlike first second)
    (change : α → γ) :
    FailAlike (first.map change) second :=
  fun error => map_eq_error_iff.trans (failAlike error)

/-- Two steps fail as two other ones do, if each fails as the step in its place does. -/
theorem both
    {others : Except Error γ}
    {rest : Except Error δ}
    (failFirst : FailAlike first second)
    (failRest : FailAlike others rest)
    {ζ η : Type}
    (make : α → γ → ζ)
    (change : β → δ → η) :
    FailAlike (do let value ← first; let other ← others; return make value other)
      (do let value ← second; let other ← rest; return change value other) := by
  intro error
  cases first with
  | error found =>
    rw [(failFirst found).1 rfl]
    exact ⟨fun same => congrArg _ (Except.error.inj same),
      fun same => congrArg _ (Except.error.inj same)⟩
  | ok value =>
    cases second with
    | error found => exact nomatch (failFirst found).2 rfl
    | ok otherValue => exact map_eq_error_iff.trans ((failRest error).trans map_eq_error_iff.symm)

end FailAlike

end

namespace Condition

theorem explainClauses_failAlike
    {clauses : List Clause}
    (inside : ∀ clause ∈ clauses,
      FailAlike clause.condition.explain (clause.condition.leaves.mapM Leaf.operator?)) :
    FailAlike (explainClauses clauses) ((clauseLeaves clauses).mapM Leaf.operator?) := by
  induction clauses with
  | nil => exact fun _ => iff_of_false nofun nofun
  | cons clause rest inductionHypothesis =>
    obtain ⟨ofFirst, ofRest⟩ := List.forall_mem_cons.1 inside
    obtain ⟨name, event, condition⟩ := clause
    rw [explainClauses, clauseLeaves, List.mapM_append]
    exact ofFirst.both (inductionHypothesis ofRest) (· :: ·) (· ++ ·)

/-- An explanation fails as the search for the operators of all leaves does, from left to
right. -/
theorem explain_failAlike (condition : Condition) :
    FailAlike condition.explain (condition.leaves.mapM Leaf.operator?) := by
  induction condition with
  | reference rule => exact fun _ => iff_of_false nofun nofun
  | leaf comparison =>
    intro error
    rw [explain, Leaf.explain, leaves, List.mapM_cons]
    cases comparison.operator? <;> simp [bind, Except.bind, pure, Except.pure]
  | not child inductionHypothesis => exact inductionHypothesis.map_left _
  | all clauses inductionHypothesis | any clauses inductionHypothesis =>
    exact (explainClauses_failAlike inductionHypothesis).map_left _

variable {condition : Condition} {error : Error}

/-- The error of an explanation is that of the leftmost leaf that does not name an operator. -/
theorem explain_eq_error_iff :
    condition.explain = .error error ↔
      ∃ before comparison after, condition.leaves = before ++ comparison :: after ∧
        (∀ earlier ∈ before, earlier.operator ∈ Operator.names) ∧
          comparison.operator ∉ Operator.names ∧
            error = .unknownOperator comparison.operator := by
  rw [condition.explain_failAlike error, mapM_eq_error_iff]
  simp only [Leaf.exists_operator?_iff, Leaf.operator?_eq_error_iff]

/-- A condition is explained exactly if all its leaves name operators. -/
theorem exists_explain_iff :
    (∃ text, condition.explain = .ok text) ↔
      ∀ comparison ∈ condition.leaves, comparison.operator ∈ Operator.names := by
  have found_iff : (∃ text, condition.explain = .ok text) ↔
      ∃ operators, condition.leaves.mapM Leaf.operator? = .ok operators := by
    have failAlike := condition.explain_failAlike
    cases explained : condition.explain with
    | error error =>
      rw [(failAlike error).1 explained]
      exact iff_of_false nofun nofun
    | ok text =>
      cases found : condition.leaves.mapM Leaf.operator? with
      | error error => exact nomatch explained.symm.trans ((failAlike error).2 found)
      | ok operators => exact ⟨fun _ => ⟨operators, rfl⟩, fun _ => ⟨text, rfl⟩⟩
  rw [found_iff, exists_mapM_iff]
  simp only [Leaf.exists_operator?_iff]

end Condition

/-! ## Executions -/

namespace Executor

variable {executor : Executor} {rule : Rule} {name : String}

/-- An execution that fails for an unknown operator has come to a leaf that names it, in a rule
to which references lead. -/
theorem exists_leaf_of_execute
    (failed : executor.execute rule = .error (.unknownOperator name)) :
    ∃ culprit, executor.registry.Reaches rule culprit ∧ name ∉ Operator.names ∧
      ∃ comparison ∈ culprit.condition.leaves, comparison.operator = name := by
  rcases blames_of_execute failed with
    ⟨culprit, comparison, reaches, compares, inLeaf⟩ | ofReferences
  · obtain ⟨isUnknown, same⟩ := Leaf.operator?_eq_error_iff.1 (Leaf.operator?_of_matches? inLeaf)
    obtain rfl : name = comparison.operator := Error.unknownOperator.inj same
    exact ⟨culprit, reaches, isUnknown, comparison, Condition.mem_leaves_of_compares compares, rfl⟩
  · exact ofReferences.elim

/-- Explanations find all unknown operators. A condition is explained exactly if every leaf in it
names an operator, and otherwise the error is that of the leftmost leaf that does not. If the
executed rule and all registered ones are explained, no execution fails for an unknown operator.
If one does, the executed rule or a registered one to which references lead from it has a leaf
with this operator, and no explanation. -/
theorem explained_iff_operators_named :
    (∀ condition : Condition, (∃ text, condition.explain = .ok text) ↔
      ∀ comparison ∈ condition.leaves, comparison.operator ∈ Operator.names) ∧
    (∀ (condition : Condition) (error : Error), condition.explain = .error error ↔
      ∃ before comparison after, condition.leaves = before ++ comparison :: after ∧
        (∀ earlier ∈ before, earlier.operator ∈ Operator.names) ∧
          comparison.operator ∉ Operator.names ∧
            error = .unknownOperator comparison.operator) ∧
    (∀ (executor : Executor) (rule : Rule),
      (∀ registered ∈ executor.registry.rules, ∃ text, registered.condition.explain = .ok text) →
      (∃ text, rule.condition.explain = .ok text) →
      ∀ name, executor.execute rule ≠ .error (.unknownOperator name)) ∧
    ∀ (executor : Executor) (rule : Rule) (name : String),
      executor.execute rule = .error (.unknownOperator name) →
      ∃ culprit, executor.registry.Reaches rule culprit ∧
        (∃ comparison ∈ culprit.condition.leaves, comparison.operator = name) ∧
        ∃ first, culprit.condition.explain = .error (.unknownOperator first) := by
  refine ⟨fun _ => Condition.exists_explain_iff, fun _ _ => Condition.explain_eq_error_iff,
    ?explained, ?unexplained⟩
  case explained =>
    intro executor rule explainedAll explained name failed
    obtain ⟨culprit, reaches, isUnknown, comparison, isLeaf, rfl⟩ := exists_leaf_of_execute failed
    have culpritExplained : ∃ text, culprit.condition.explain = .ok text := by
      rcases reaches with rfl | ⟨isRegistered, _⟩
      · exact explained
      · exact explainedAll culprit isRegistered
    exact isUnknown (Condition.exists_explain_iff.1 culpritExplained comparison isLeaf)
  case unexplained =>
    intro executor rule name failed
    obtain ⟨culprit, reaches, isUnknown, comparison, isLeaf, rfl⟩ := exists_leaf_of_execute failed
    refine ⟨culprit, reaches, ⟨comparison, isLeaf, rfl⟩, ?_⟩
    cases explained : culprit.condition.explain with
    | ok text =>
      exact absurd (Condition.exists_explain_iff.1 ⟨text, explained⟩ comparison isLeaf) isUnknown
    | error error =>
      obtain ⟨_, first, _, _, _, _, rfl⟩ := Condition.explain_eq_error_iff.1 explained
      exact ⟨first.operator, rfl⟩

/-- A rule whose second leaf does not name an operator. -/
def misnamed : Rule where
  name := "misnamed"
  condition := .any [
    .plain (.leaf { fact := "speed", operator := "equal", value := .null }),
    .plain (.leaf { fact := "speed", operator := "near", value := .null })]
  event := {}
  failureEvent := {}

/-- A rule that asks this one. -/
def trusting : Rule where
  name := "trusting"
  condition := .reference "misnamed"
  event := {}
  failureEvent := {}

/-- An executor in which the rule can be asked, with a fact for which the first leaf does not
hold. -/
def speeding : Executor where
  registry := (Registry.empty.registerAll [misnamed]).1
  facts := Facts.empty.add "speed" (.boolean true)

/-- The rule that asks is explained, and fails for the operator in the rule that it asks. -/
theorem execute_trusting :
    trusting.condition.explain = .ok "misnamed" ∧
    speeding.execute trusting = .error (.unknownOperator "near") ∧
    ∃ culprit, speeding.registry.Reaches trusting culprit ∧
      (∃ comparison ∈ culprit.condition.leaves, comparison.operator = "near") ∧
      ∃ first, culprit.condition.explain = .error (.unknownOperator first) := by
  have failed : speeding.execute trusting = .error (.unknownOperator "near") := rfl
  exact ⟨rfl, failed, explained_iff_operators_named.2.2.2 speeding trusting "near" failed⟩

end Executor
end Verdict
