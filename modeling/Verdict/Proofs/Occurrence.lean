import Verdict.Explanation
import Verdict.Proofs.Visit

/-!
# What a condition contains

A condition contains itself and whatever its parts contain. It compares the leaves
that it contains, and mentions the names of the references that it contains.

Whether a visit to a condition succeeds is decided by these alone: it can only fail
at a leaf that is compared or at a name that is mentioned. A leaf fails only for what
it asks. An explanation of a condition can only fail at a leaf.
-/

namespace Verdict

/-! ## Errors of leaves -/

/-- An error is about what a leaf asks: its operator, its path or its operands. -/
def Error.OfLeaf (leaf : Leaf) : Error → Prop
  | .unknownOperator name => name = leaf.operator
  | .pathNotFound fact path => fact = leaf.fact ∧ leaf.path = some path
  | .typeMismatch _ => True
  | _ => False

namespace Operator

variable {operator : Operator} {fact expected : Json} {error : Error}

theorem error_of_compareOrdered
    (failed : operator.compareOrdered fact expected = .error error) :
    ∃ mismatch, error = .typeMismatch mismatch := by
  unfold compareOrdered at failed
  split at failed
  · exact nomatch failed
  · exact ⟨_, (Except.error.inj failed).symm⟩

theorem error_of_listed
    (failed : operator.listed fact expected = .error error) :
    ∃ mismatch, error = .typeMismatch mismatch := by
  unfold listed at failed
  split at failed
  · exact nomatch failed
  · exact ⟨_, (Except.error.inj failed).symm⟩

theorem error_of_compare
    (failed : operator.compare fact expected = .error error) :
    ∃ mismatch, error = .typeMismatch mismatch := by
  cases operator with
  | equal => exact nomatch failed
  | lessThan | lessThanInclusive | greaterThan | greaterThanInclusive =>
    exact error_of_compareOrdered failed
  | member => exact error_of_listed failed
  | notMember => exact error_of_listed (error_of_map failed)
  | contains =>
    cases fact <;> exact nomatch failed

end Operator

/-- A look-up fails only for the path along which it goes. -/
theorem Facts.error_of_get
    {facts : Facts}
    {name : String}
    {path? : Option String}
    {error : Error}
    (failed : facts.get name path? = .error error) :
    ∃ path, path? = some path ∧ error = .pathNotFound name path := by
  unfold get at failed
  split at failed
  · exact nomatch failed
  · exact nomatch failed
  case h_3 path _ =>
    split at failed
    · exact nomatch failed
    · exact ⟨path, rfl, (Except.error.inj failed).symm⟩

namespace Leaf

/-- An operator that is not found does not exist. -/
theorem error_of_operator?
    {leaf : Leaf}
    {error : Error}
    (failed : leaf.operator? = .error error) :
    error = .unknownOperator leaf.operator := by
  unfold operator? at failed
  split at failed
  · exact nomatch failed
  · exact (Except.error.inj failed).symm

/-- A leaf fails only for what it asks. -/
theorem error_of_matches?
    {facts : Facts}
    {leaf : Leaf}
    {error : Error}
    (failed : leaf.matches? facts = .error error) :
    error.OfLeaf leaf := by
  rw [matches?] at failed
  cases named : leaf.operator? with
  | error found =>
    rw [named] at failed
    have same : found = error := Except.error.inj failed
    rw [← same, error_of_operator? named]
    rfl
  | ok operator =>
    rw [named] at failed
    cases given : facts.get leaf.fact leaf.path with
    | error found =>
      rw [given] at failed
      obtain ⟨path, isPath, rfl⟩ := Facts.error_of_get given
      rw [← Except.error.inj failed]
      exact ⟨rfl, isPath⟩
    | ok fact =>
      rw [given] at failed
      obtain ⟨mismatch, rfl⟩ := Operator.error_of_compare failed
      exact trivial

end Leaf

/-! ## Parts of conditions -/

namespace Condition

/-- A condition is part of another one, at any depth. -/
inductive Within (part : Condition) : Condition → Prop
  | self : Within part part
  | not {child : Condition} : Within part child → Within part (.not child)
  | all
      {clauses : List Clause}
      {clause : Clause}
      (member : clause ∈ clauses)
      (within : Within part clause.condition) :
      Within part (.all clauses)
  | any
      {clauses : List Clause}
      {clause : Clause}
      (member : clause ∈ clauses)
      (within : Within part clause.condition) :
      Within part (.any clauses)

/-- A leaf occurs somewhere in a condition. -/
def Compares (condition : Condition) (comparison : Leaf) : Prop :=
  Within (.leaf comparison) condition

/-- A name occurs in a reference somewhere in a condition. -/
def Mentions (condition : Condition) (name : String) : Prop :=
  Within (.reference name) condition

mutual

/-- The leaves of a condition, from left to right. -/
def leaves : Condition → List Leaf
  | .all clauses => clauseLeaves clauses
  | .any clauses => clauseLeaves clauses
  | .not child => child.leaves
  | .reference _ => []
  | .leaf comparison => [comparison]

/-- The leaves of clauses, from left to right. -/
def clauseLeaves : List Clause → List Leaf
  | [] => []
  | ⟨_, _, condition⟩ :: rest => condition.leaves ++ clauseLeaves rest

end

theorem clauseLeaves_eq_flatMap (clauses : List Clause) :
    clauseLeaves clauses = clauses.flatMap fun clause => clause.condition.leaves := by
  induction clauses with
  | nil => rfl
  | cons clause rest inductionHypothesis =>
    obtain ⟨name, event, condition⟩ := clause
    rw [clauseLeaves, inductionHypothesis, List.flatMap_cons]

/-- A leaf that a condition compares is one of its leaves. -/
theorem mem_leaves_of_compares
    {condition : Condition}
    {comparison : Leaf}
    (compares : condition.Compares comparison) :
    comparison ∈ condition.leaves := by
  induction compares with
  | self => exact List.mem_singleton_self comparison
  | not _ inductionHypothesis => exact inductionHypothesis
  | all isClause _ inductionHypothesis | any isClause _ inductionHypothesis =>
    rw [leaves, clauseLeaves_eq_flatMap, List.mem_flatMap]
    exact ⟨_, isClause, inductionHypothesis⟩

/-- The list of references has exactly the names that a condition mentions. -/
theorem mem_references_iff
    {condition : Condition}
    {name : String} :
    name ∈ condition.references ↔ condition.Mentions name := by
  constructor
  · intro member
    induction condition with
    | all clauses inductionHypothesis =>
      rw [references, clauseReferences_eq_flatMap, List.mem_flatMap] at member
      obtain ⟨clause, isClause, inClause⟩ := member
      exact .all isClause (inductionHypothesis clause isClause inClause)
    | any clauses inductionHypothesis =>
      rw [references, clauseReferences_eq_flatMap, List.mem_flatMap] at member
      obtain ⟨clause, isClause, inClause⟩ := member
      exact .any isClause (inductionHypothesis clause isClause inClause)
    | not child inductionHypothesis => exact .not (inductionHypothesis member)
    | reference rule =>
      have same : name = rule := List.mem_singleton.1 member
      exact same ▸ .self
    | leaf comparison => exact nomatch member
  · intro mentions
    induction mentions with
    | self => exact List.mem_singleton_self name
    | not within inductionHypothesis => exact inductionHypothesis
    | all isClause within inductionHypothesis =>
      rw [references, clauseReferences_eq_flatMap, List.mem_flatMap]
      exact ⟨_, isClause, inductionHypothesis⟩
    | any isClause within inductionHypothesis =>
      rw [references, clauseReferences_eq_flatMap, List.mem_flatMap]
      exact ⟨_, isClause, inductionHypothesis⟩

/-! ## Where a visit fails -/

variable {facts : Facts} {follow : String → Except Error Visit} {error : Error}

/-- When clauses cannot be visited, the condition of one of them cannot. -/
theorem error_of_visitUntil
    {settling : Bool}
    {clauses : List Clause}
    (failed : visitUntil facts follow settling clauses = .error error) :
    ∃ clause ∈ clauses, clause.condition.visit facts follow = .error error := by
  induction clauses with
  | nil => exact nomatch failed
  | cons clause rest inductionHypothesis =>
    cases visited : clause.condition.visit facts follow with
    | error found =>
      rw [visitUntil_of_error visited] at failed
      have same : found = error := Except.error.inj failed
      exact ⟨clause, List.mem_cons_self, same ▸ visited⟩
    | ok visit =>
      by_cases settled : visit.verdict = settling
      · rw [visitUntil_of_settled visited settled] at failed
        exact nomatch failed
      · rw [visitUntil_of_open visited settled] at failed
        obtain ⟨other, member, inOther⟩ := inductionHypothesis (error_of_map failed)
        exact ⟨other, List.mem_cons_of_mem clause member, inOther⟩

/-- A visit to a condition fails at a leaf that is compared or at a rule that is
mentioned. -/
theorem error_of_visit
    {condition : Condition}
    (failed : condition.visit facts follow = .error error) :
    (∃ comparison, condition.Compares comparison ∧ comparison.matches? facts = .error error) ∨
      ∃ name, condition.Mentions name ∧ follow name = .error error := by
  induction condition with
  | leaf comparison => exact .inl ⟨comparison, Within.self, error_of_map failed⟩
  | reference name => exact .inr ⟨name, Within.self, error_of_map failed⟩
  | not child inductionHypothesis =>
    refine (inductionHypothesis (error_of_map failed)).imp ?_ ?_
    · exact fun ⟨comparison, compares, failed⟩ => ⟨comparison, Within.not compares, failed⟩
    · exact fun ⟨name, mentions, failed⟩ => ⟨name, Within.not mentions, failed⟩
  | all clauses inductionHypothesis =>
    obtain ⟨clause, member, inClause⟩ := error_of_visitUntil (error_of_map failed)
    refine (inductionHypothesis clause member inClause).imp ?_ ?_
    · exact fun ⟨comparison, compares, failed⟩ => ⟨comparison, Within.all member compares, failed⟩
    · exact fun ⟨name, mentions, failed⟩ => ⟨name, Within.all member mentions, failed⟩
  | any clauses inductionHypothesis =>
    obtain ⟨clause, member, inClause⟩ := error_of_visitUntil (error_of_map failed)
    refine (inductionHypothesis clause member inClause).imp ?_ ?_
    · exact fun ⟨comparison, compares, failed⟩ => ⟨comparison, Within.any member compares, failed⟩
    · exact fun ⟨name, mentions, failed⟩ => ⟨name, Within.any member mentions, failed⟩

/-! ## Where an explanation fails -/

/-- When clauses cannot be explained, the condition of one of them cannot. -/
theorem error_of_explainClauses
    {clauses : List Clause}
    (failed : explainClauses clauses = .error error) :
    ∃ clause ∈ clauses, clause.condition.explain = .error error := by
  rw [explainClauses_eq_mapM] at failed
  obtain ⟨before, clause, after, rfl, _, inClause⟩ := mapM_eq_error_iff.1 failed
  exact ⟨clause, List.mem_append_right before List.mem_cons_self, inClause⟩

/-- An explanation of a condition fails at a leaf whose operator does not exist. -/
theorem error_of_explain
    {condition : Condition}
    (failed : condition.explain = .error error) :
    ∃ comparison, condition.Compares comparison ∧
      error = .unknownOperator comparison.operator := by
  induction condition with
  | leaf comparison =>
    rw [explain, Leaf.explain] at failed
    rcases error_of_bind failed with named | ⟨operator, _, isError⟩
    · exact ⟨comparison, Within.self, Leaf.error_of_operator? named⟩
    · exact nomatch isError
  | reference name =>
    rw [explain] at failed
    exact nomatch failed
  | not child inductionHypothesis =>
    rw [explain] at failed
    obtain ⟨comparison, compares, named⟩ := inductionHypothesis (error_of_map failed)
    exact ⟨comparison, Within.not compares, named⟩
  | all clauses inductionHypothesis =>
    rw [explain] at failed
    obtain ⟨clause, member, inClause⟩ := error_of_explainClauses (error_of_map failed)
    obtain ⟨comparison, compares, named⟩ := inductionHypothesis clause member inClause
    exact ⟨comparison, Within.all member compares, named⟩
  | any clauses inductionHypothesis =>
    rw [explain] at failed
    obtain ⟨clause, member, inClause⟩ := error_of_explainClauses (error_of_map failed)
    obtain ⟨comparison, compares, named⟩ := inductionHypothesis clause member inClause
    exact ⟨comparison, Within.any member compares, named⟩

/-! ## Which clauses fail -/

/-- A clause that failed inside clauses that were visited is one of them or inside one. -/
theorem exists_of_mem_clauseFailures
    {settling : Bool}
    {clauses : List Clause}
    {visits : List ClauseVisit}
    {clause : Clause}
    (visited : visitUntil facts follow settling clauses = .ok visits)
    (failed : clause ∈ Visit.clauseFailures visits) :
    ∃ outer ∈ clauses, clause = outer ∨
      ∃ visit, outer.condition.visit facts follow = .ok visit ∧ clause ∈ visit.failures := by
  rw [Visit.clauseFailures_eq_flatMap] at failed
  obtain ⟨shown, isVisited, inShown⟩ := List.mem_flatMap.1 failed
  obtain ⟨isClause, visitedShown⟩ := mem_of_visitUntil visited isVisited
  rcases List.mem_append.1 inShown with inside | itself
  · exact ⟨shown.clause, isClause, .inr ⟨shown.visit, visitedShown, inside⟩⟩
  · split at itself
    · exact nomatch itself
    · exact ⟨shown.clause, isClause, .inl (List.mem_singleton.1 itself)⟩

/-- The conditions of clauses that failed are part of the condition that was visited. -/
theorem within_of_mem_failures
    {condition : Condition}
    {visit : Visit}
    {clause : Clause}
    (visited : condition.visit facts follow = .ok visit)
    (failed : clause ∈ visit.failures) :
    Within clause.condition condition := by
  induction condition generalizing visit with
  | leaf comparison =>
    obtain ⟨matched, _, rfl⟩ := exists_of_map visited
    exact nomatch failed
  | reference name =>
    obtain ⟨body, _, rfl⟩ := exists_of_map visited
    exact nomatch failed
  | not child inductionHypothesis =>
    obtain ⟨inner, visitedChild, rfl⟩ := exists_of_map visited
    exact .not (inductionHypothesis visitedChild failed)
  | all clauses inductionHypothesis =>
    obtain ⟨visits, visitedClauses, rfl⟩ := exists_of_map visited
    obtain ⟨outer, member, rfl | ⟨visit, visitedOuter, inside⟩⟩ :=
      exists_of_mem_clauseFailures visitedClauses failed
    · exact .all member .self
    · exact .all member (inductionHypothesis outer member visitedOuter inside)
  | any clauses inductionHypothesis =>
    obtain ⟨visits, visitedClauses, rfl⟩ := exists_of_map visited
    obtain ⟨outer, member, rfl | ⟨visit, visitedOuter, inside⟩⟩ :=
      exists_of_mem_clauseFailures visitedClauses failed
    · exact .any member .self
    · exact .any member (inductionHypothesis outer member visitedOuter inside)

end Condition
end Verdict
