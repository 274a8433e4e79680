import Verdict.Proofs.Acceptance

/-!
# Construction

A condition comes about in two ways. A program builds it from its parts with the
constructors that check what they are given, and a reader converts the specification in
which it is written.

Both ways make the same demands of leaves and of negations. They differ at references: a
specification must name the rule, and a constructor takes any text. So a condition is
converted exactly if it can be built and every reference in it names a rule, and then both
ways give the condition that was described.
-/

namespace Verdict
namespace Condition

/-! ## Checked constructors -/

mutual

/-- What the checked constructors make of a description, from the leaves up. Any tree
describes a condition, but not every tree can be built. -/
def construct : Condition → Except ConditionFault Condition
  | .all clauses => (constructClauses clauses).map .all
  | .any clauses => (constructClauses clauses).map .any
  | .not child => child.construct.bind negate
  | .reference rule => .ok (.reference rule)
  | .leaf comparison =>
    (Leaf.make comparison.fact comparison.operator comparison.value).map fun made =>
      .leaf { made with path := comparison.path }

/-- What the checked constructors make of the clauses of a group, in order. -/
def constructClauses : List Clause → Except ConditionFault (List Clause)
  | [] => .ok []
  | ⟨name, event, condition⟩ :: rest => do
    let condition ← condition.construct
    let clauses ← constructClauses rest
    return ⟨name, event, condition⟩ :: clauses

end

/-- What the checked constructors make of one clause, whose name and event need no check. -/
def constructClause (clause : Clause) : Except ConditionFault Clause :=
  clause.condition.construct.map fun condition => { clause with condition }

theorem constructClauses_eq_mapM (clauses : List Clause) :
    constructClauses clauses = clauses.mapM constructClause := by
  induction clauses with
  | nil => rfl
  | cons clause rest inductionHypothesis =>
    obtain ⟨name, event, condition⟩ := clause
    rw [constructClauses, inductionHypothesis, List.mapM_cons, constructClause]
    cases condition.construct <;> rfl

theorem construct_all (clauses : List Clause) :
    (all clauses).construct = (clauses.mapM constructClause).map .all := by
  rw [construct, constructClauses_eq_mapM]

theorem construct_any (clauses : List Clause) :
    (any clauses).construct = (clauses.mapM constructClause).map .any := by
  rw [construct, constructClauses_eq_mapM]

/-- Clauses are built unchanged, if the condition of each is. -/
theorem eq_of_mapM_constructClause
    {clauses built : List Clause}
    (unchanged : ∀ clause ∈ clauses, ∀ condition, clause.condition.construct = .ok condition →
      condition = clause.condition)
    (constructed : clauses.mapM constructClause = .ok built) :
    built = clauses := by
  have each : ∀ clause ∈ clauses, constructClause clause = .ok clause := by
    intro clause member
    obtain ⟨result, made⟩ := exists_mapM_iff.1 ⟨built, constructed⟩ clause member
    obtain ⟨condition, madeCondition, isResult⟩ := exists_of_map made
    rw [made, ← isResult, unchanged clause member condition madeCondition]
    cases clause
    rfl
  have itself : clauses.mapM constructClause = .ok clauses :=
    mapM_eq_ok_iff.2 (List.forall₂_same.2 each)
  exact Except.ok.inj (constructed.symm.trans itself)

/-- What is built is what was described. -/
theorem eq_of_construct
    {description condition : Condition}
    (constructed : description.construct = .ok condition) :
    condition = description := by
  induction description generalizing condition with
  | all clauses inductionHypothesis =>
    rw [construct_all] at constructed
    obtain ⟨built, builtClauses, rfl⟩ := exists_of_map constructed
    rw [eq_of_mapM_constructClause (fun clause member _ => inductionHypothesis clause member)
      builtClauses]
  | any clauses inductionHypothesis =>
    rw [construct_any] at constructed
    obtain ⟨built, builtClauses, rfl⟩ := exists_of_map constructed
    rw [eq_of_mapM_constructClause (fun clause member _ => inductionHypothesis clause member)
      builtClauses]
  | not child inductionHypothesis =>
    rw [construct] at constructed
    obtain ⟨inner, builtChild, negated⟩ := bind_eq_ok_iff.1 constructed
    obtain ⟨_, rfl⟩ := negate_eq_ok_iff.1 negated
    rw [inductionHypothesis builtChild]
  | reference rule => exact (Except.ok.inj constructed).symm
  | leaf comparison =>
    rw [construct] at constructed
    obtain ⟨made, makes, rfl⟩ := exists_of_map constructed
    obtain ⟨_, rfl⟩ := Leaf.make_eq_ok_iff.1 makes
    rfl

/-- Every reference in a well-formed condition names a rule. -/
theorem WellFormed.names
    {condition : Condition}
    (wellFormed : condition.WellFormed) :
    "" ∉ condition.references := by
  intro mentioned
  cases wellFormed.of_within (mem_references_iff.1 mentioned) with
  | reference named => exact named rfl

end Condition

/-! ## Conversion beside construction -/

namespace ConditionSpec

open Condition (construct constructClause)

/-- The clauses that are written are converted to those that the constructors build, unless a
reference in one of them names no rule and the conversion is refused for that. -/
theorem mapM_toClause_ofClauses_cases
    {clauses : List Clause}
    (inside : ∀ clause ∈ clauses,
      (ofCondition clause.condition).toCondition = clause.condition.construct ∨
        "" ∈ clause.condition.references ∧
          (ofCondition clause.condition).toCondition = .error .unnamedReference) :
    (ofClauses clauses).mapM toClause = clauses.mapM constructClause ∨
      "" ∈ Condition.clauseReferences clauses ∧
        (ofClauses clauses).mapM toClause = .error .unnamedReference := by
  induction clauses with
  | nil => exact .inl rfl
  | cons clause rest inductionHypothesis =>
    obtain ⟨ofFirst, ofRest⟩ := List.forall_mem_cons.1 inside
    have written : (ofClause clause).toClause =
        (ofCondition clause.condition).toCondition.map
          fun condition => { clause with condition } := by
      rw [toClause]
      exact congrArg _ (toCondition_relabel (ofCondition clause.condition) clause.name clause.event)
    rw [ofClauses_eq_map] at inductionHypothesis ⊢
    rw [List.map_cons, List.mapM_cons, List.mapM_cons, Condition.clauseReferences_eq_flatMap,
      List.flatMap_cons, List.mem_append, ← Condition.clauseReferences_eq_flatMap, written]
    rcases ofFirst with same | ⟨mentioned, refused⟩
    · rw [same, ← constructClause]
      rcases inductionHypothesis ofRest with sameRest | ⟨mentioned, refused⟩
      · exact .inl (by rw [sameRest])
      · -- the fault of the first clause comes before that of the others
        cases constructClause clause with
        | error fault => exact .inl rfl
        | ok built => exact .inr ⟨.inr mentioned, by rw [refused]; rfl⟩
    · exact .inr ⟨.inl mentioned, by rw [refused]; rfl⟩

/-- What is written of a condition is converted to what the constructors build, unless a
reference in it names no rule and the conversion is refused for that. -/
theorem toCondition_ofCondition_cases (description : Condition) :
    (ofCondition description).toCondition = description.construct ∨
      "" ∈ description.references ∧
        (ofCondition description).toCondition = .error .unnamedReference := by
  induction description with
  | all clauses inductionHypothesis =>
    have written : (ofCondition (.all clauses)).toCondition =
        ((ofClauses clauses).mapM toClause).map .all := toCondition_of_shapeCount rfl
    rw [written, Condition.construct_all]
    rcases mapM_toClause_ofClauses_cases inductionHypothesis with same | ⟨mentioned, refused⟩
    · exact .inl (by rw [same])
    · exact .inr ⟨mentioned, by rw [refused]; rfl⟩
  | any clauses inductionHypothesis =>
    have written : (ofCondition (.any clauses)).toCondition =
        ((ofClauses clauses).mapM toClause).map .any := toCondition_of_shapeCount rfl
    rw [written, Condition.construct_any]
    rcases mapM_toClause_ofClauses_cases inductionHypothesis with same | ⟨mentioned, refused⟩
    · exact .inl (by rw [same])
    · exact .inr ⟨mentioned, by rw [refused]; rfl⟩
  | not child inductionHypothesis =>
    have written : (ofCondition (.not child)).toCondition =
        (ofCondition child).toCondition.bind Condition.negate := toCondition_of_shapeCount rfl
    rw [written, construct]
    rcases inductionHypothesis with same | ⟨mentioned, refused⟩
    · exact .inl (by rw [same])
    · exact .inr ⟨mentioned, by rw [refused]; rfl⟩
  | reference rule =>
    have written : (ofCondition (.reference rule)).toCondition = toReference rule :=
      toCondition_of_shapeCount rfl
    rw [written]
    by_cases named : rule = ""
    · exact .inr ⟨by simp [Condition.references, named], toReference_eq_error_iff.2 ⟨named, rfl⟩⟩
    · exact .inl (toReference_eq_ok_iff.2 ⟨named, rfl⟩)
  | leaf comparison =>
    have written : (ofCondition (.leaf comparison)).toCondition =
        (ofCondition (.leaf comparison)).toLeaf := toCondition_of_shapeCount rfl
    rw [written, construct]
    left
    change (Leaf.make comparison.fact comparison.operator comparison.value >>= _) = _
    cases Leaf.make comparison.fact comparison.operator comparison.value <;> rfl

theorem toCondition_ofCondition_eq_ok_iff {description condition : Condition} :
    (ofCondition description).toCondition = .ok condition ↔
      description.construct = .ok condition ∧ "" ∉ description.references := by
  constructor
  · intro converted
    rcases toCondition_ofCondition_cases description with same | ⟨_, refused⟩
    · have constructed := same.symm.trans converted
      have unchanged := Condition.eq_of_construct constructed
      exact ⟨constructed, unchanged ▸ (wellFormed_of_toCondition converted).names⟩
    · exact nomatch refused.symm.trans converted
  · rintro ⟨constructed, named⟩
    rcases toCondition_ofCondition_cases description with same | ⟨mentioned, _⟩
    · exact same.trans constructed
    · exact absurd mentioned named

/-- A description is converted from its written form exactly if the checked constructors build
it and every reference in it names a rule. Where every reference does, both ways come to the
same, be it a condition or a fault. What is built is what was described; if it holds a
reference that names no rule, its written form is refused for that. -/
theorem converted_if_constructed_and_named (description : Condition) :
    (∀ condition, (ofCondition description).toCondition = .ok condition ↔
      description.construct = .ok condition ∧ "" ∉ description.references) ∧
    ("" ∉ description.references →
      (ofCondition description).toCondition = description.construct) ∧
    ∀ condition, description.construct = .ok condition →
      condition = description ∧
        ("" ∈ description.references →
          (ofCondition description).toCondition = .error .unnamedReference) := by
  refine ⟨fun condition => toCondition_ofCondition_eq_ok_iff, ?alike, ?built⟩
  case alike =>
    intro named
    rcases toCondition_ofCondition_cases description with same | ⟨mentioned, _⟩
    · exact same
    · exact absurd mentioned named
  case built =>
    intro condition constructed
    refine ⟨Condition.eq_of_construct constructed, fun mentioned => ?_⟩
    rcases toCondition_ofCondition_cases description with same | ⟨_, refused⟩
    · have converted := same.trans constructed
      exact absurd mentioned (toCondition_ofCondition_eq_ok_iff.1 converted).2
    · exact refused

/-- What the constructors build need not be read again: a reference is built without a name,
and its written form is refused. -/
theorem not_forall_converted_iff_constructed :
    ¬∀ description condition : Condition,
      description.construct = .ok condition ↔
        (ofCondition description).toCondition = .ok condition := by
  intro claimed
  have converted := (claimed (.reference "") (.reference "")).1 rfl
  have refused : (ofCondition (.reference "")).toCondition = .error .unnamedReference :=
    toCondition_of_shapeCount rfl
  exact nomatch refused.symm.trans converted

end ConditionSpec
end Verdict
