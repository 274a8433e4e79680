import Verdict.Proofs.Outline
import Verdict.Proofs.Registration

/-!
# Annotations of clauses

A clause may carry a name and an event. Both are annotations: they are reported with the clause,
and the event may be given out when the rule holds, but nothing is decided by them.

Two conditions are bare of annotations alike when they differ in the annotations of their clauses
only, at any depth. Rules with such conditions, in registries of such rules, come to the same
verdict or to the same error, ask the same rules, leave the same trace and report the same
clauses up to annotations. Such conditions have the same explanation.
-/

namespace Verdict

/-! ## Bare conditions -/

namespace Condition

mutual

/-- A condition without the names and the events of its clauses. -/
def bare : Condition → Condition
  | .all clauses => .all (bareClauses clauses)
  | .any clauses => .any (bareClauses clauses)
  | .not child => .not child.bare
  | .reference rule => .reference rule
  | .leaf comparison => .leaf comparison

/-- Clauses without names and events, their own and those inside them. -/
def bareClauses : List Clause → List Clause
  | [] => []
  | ⟨_, _, condition⟩ :: rest => .plain condition.bare :: bareClauses rest

end

end Condition

/-- A clause without names and events, its own and those inside it. -/
def Clause.bare (clause : Clause) : Clause :=
  .plain clause.condition.bare

/-- A rule without the names and the events of its clauses. -/
def Rule.bare (rule : Rule) : Rule :=
  { rule with condition := rule.condition.bare }

/-- An evaluation without the names and the events of the clauses that it reports, and without
the event that is given out when the rule holds, as that may be the event of a clause. -/
def Evaluation.bare (evaluation : Evaluation) : Evaluation :=
  { evaluation with
    event := if evaluation.verdict then {} else evaluation.event
    failedConditions := evaluation.failedConditions.map Clause.bare }

namespace Condition

theorem bareClauses_eq_map (clauses : List Clause) :
    bareClauses clauses = clauses.map Clause.bare := by
  induction clauses with
  | nil => rfl
  | cons clause rest inductionHypothesis =>
    obtain ⟨name, event, condition⟩ := clause
    rw [bareClauses, inductionHypothesis]
    rfl

@[simp] theorem bare_all (clauses : List Clause) :
    (all clauses).bare = .all (clauses.map Clause.bare) := by
  rw [bare, bareClauses_eq_map]

@[simp] theorem bare_any (clauses : List Clause) :
    (any clauses).bare = .any (clauses.map Clause.bare) := by
  rw [bare, bareClauses_eq_map]

@[simp] theorem bare_not (child : Condition) : (not child).bare = .not child.bare :=
  rfl

@[simp] theorem bare_reference (rule : String) : (reference rule).bare = .reference rule :=
  rfl

@[simp] theorem bare_leaf (comparison : Leaf) : (leaf comparison).bare = .leaf comparison :=
  rfl

/-! ## Explanations -/

theorem explainClauses_bare
    {clauses : List Clause}
    (inside : ∀ clause ∈ clauses, clause.condition.bare.explain = clause.condition.explain) :
    explainClauses (clauses.map Clause.bare) = explainClauses clauses := by
  rw [explainClauses_eq_mapM, explainClauses_eq_mapM, List.mapM_map]
  exact mapM_congr inside

/-- An explanation does not show annotations. -/
theorem explain_bare (condition : Condition) : condition.bare.explain = condition.explain := by
  induction condition with
  | leaf | reference => rfl
  | not child inductionHypothesis => rw [bare_not, explain, explain, inductionHypothesis]
  | all clauses inductionHypothesis =>
    rw [bare_all, explain, explain, explainClauses_bare inductionHypothesis]
  | any clauses inductionHypothesis =>
    rw [bare_any, explain, explain, explainClauses_bare inductionHypothesis]

/-! ## Visits -/

section

variable {facts : Facts} {follow otherFollow : String → Except Error Visit}

/-- Clauses of the same index are bare alike if the lists are. -/
theorem rel_getElem?_of_bare_eq
    {relation : Clause → Clause → Prop}
    {clauses others : List Clause}
    (same : others.map Clause.bare = clauses.map Clause.bare)
    (related : ∀ clause ∈ clauses, ∀ other, other.bare = clause.bare → relation clause other)
    (index : Nat) :
    Option.Rel relation clauses[index]? others[index]? := by
  have sameAt := congrArg (·[index]?) same
  simp only [List.getElem?_map] at sameAt
  cases found : clauses[index]? with
  | none =>
    rw [found, Option.map_none, Option.map_eq_none_iff] at sameAt
    rw [sameAt]
    exact .none
  | some clause =>
    rw [found, Option.map_some] at sameAt
    obtain ⟨other, foundOther, sameBare⟩ := Option.map_eq_some_iff.1 sameAt
    rw [foundOther]
    exact .some (related clause (List.mem_of_getElem? found) other sameBare)

/-- Conditions that are bare alike are visited with the same outline if the rules that they ask
are. -/
theorem visit_eq_of_bare_eq
    (followed : ∀ name,
      (otherFollow name).map (Visit.mapParts Clause.bare id) =
        (follow name).map (Visit.mapParts Clause.bare id))
    {condition other : Condition}
    (same : other.bare = condition.bare) :
    (other.visit facts otherFollow).map (Visit.mapParts Clause.bare id) =
      (condition.visit facts follow).map (Visit.mapParts Clause.bare id) := by
  have keepsVerdict : ∀ body : Visit, (id body).verdict = body.verdict := fun _ => rfl
  -- the bare form tells the shape of the other condition
  induction condition generalizing other with
  | leaf comparison =>
    cases other with
    | leaf comparison =>
      cases same
      rfl
    | _ => simp at same
  | reference name =>
    cases other with
    | reference name =>
      cases same
      exact visit_eq_of_followed keepsVerdict fun _ name _ => followed name
    | _ => simp at same
  | not child inductionHypothesis =>
    cases other with
    | not other => exact visit_not_eq (inductionHypothesis (Condition.not.inj same))
    | _ => simp at same
  | all clauses inductionHypothesis =>
    cases other with
    | all others =>
      rw [bare_all, bare_all] at same
      refine visit_all_eq_of_correspond keepsVerdict fun index _ =>
        rel_getElem?_of_bare_eq (Condition.all.inj same) ?_ index
      intro clause member other sameBare
      exact ⟨sameBare, inductionHypothesis clause member (congrArg Clause.condition sameBare)⟩
    | _ => simp at same
  | any clauses inductionHypothesis =>
    cases other with
    | any others =>
      rw [bare_any, bare_any] at same
      refine visit_any_eq_of_correspond keepsVerdict fun index _ =>
        rel_getElem?_of_bare_eq (Condition.any.inj same) ?_ index
      intro clause member other sameBare
      exact ⟨sameBare, inductionHypothesis clause member (congrArg Clause.condition sameBare)⟩
    | _ => simp at same

end

end Condition

/-! ## Rules and registries -/

theorem Rule.bare_eq_iff
    {rule changed : Rule} :
    changed.bare = rule.bare ↔
      changed.name = rule.name ∧ changed.condition.bare = rule.condition.bare ∧
        changed.event = rule.event ∧ changed.failureEvent = rule.failureEvent := by
  simp [bare]

/-- A name stands for rules that are bare alike, if the rules of two registries are. -/
theorem Registry.get?_bare
    {registry other : Registry}
    (same : other.rules.map Rule.bare = registry.rules.map Rule.bare)
    (name : String) :
    (other.get? name).map Rule.bare = (registry.get? name).map Rule.bare := by
  have found : ∀ registry : Registry, (registry.get? name).map Rule.bare =
      (registry.rules.map Rule.bare).find? fun rule => rule.name == name := by
    intro registry
    rw [get?_eq_find?, List.find?_map]
    rfl
  rw [found, found, same]

namespace Executor

variable {executor : Executor} {other : Registry} {rule : Rule}

/-- Rules that are bare alike are visited with the same outline. -/
theorem visitFrom_eq_of_bare_eq
    (sameRules : other.rules.map Rule.bare = executor.registry.rules.map Rule.bare)
    {stack : List String}
    {changed : Rule}
    (same : changed.bare = rule.bare) :
    ({ executor with registry := other }.visitFrom stack changed).map
        (Visit.mapParts Clause.bare id) =
      (executor.visitFrom stack rule).map (Visit.mapParts Clause.bare id) := by
  induction stack, rule using visitFrom.induct executor generalizing changed with
  | case1 stack rule isKnown =>
    have sameName := (Rule.bare_eq_iff.1 same).1
    rw [visitFrom_congr_of_closed sameName (.inl isKnown)]
  | case2 stack rule isNew full =>
    have sameName := (Rule.bare_eq_iff.1 same).1
    rw [visitFrom_congr_of_closed sameName (.inr full)]
  | case3 stack rule isNew room inductionHypothesis =>
    obtain ⟨sameName, sameCondition, _⟩ := Rule.bare_eq_iff.1 same
    have isNewToo : changed.name ∉ stack := by rwa [sameName]
    have otherRoom : ¬{ executor with registry := other }.maxDepth ≤ stack.length := room
    rw [visitFrom_of_room isNew room, visitFrom_of_room isNewToo otherRoom, sameName]
    refine Condition.visit_eq_of_bare_eq (fun name => ?_) sameCondition
    have sameRule := Registry.get?_bare sameRules name
    cases found : executor.registry.get? name with
    | none =>
      rw [found, Option.map_none, Option.map_eq_none_iff] at sameRule
      rw [Registry.follow, Registry.follow, found, sameRule]
    | some next =>
      rw [found, Option.map_some] at sameRule
      obtain ⟨changedNext, foundToo, sameBare⟩ := Option.map_eq_some_iff.1 sameRule
      rw [Registry.follow_of_get? found, Registry.follow_of_get? foundToo]
      exact inductionHypothesis next sameBare

end Executor

/-! ## Reports -/

/-- Visits with the same outline to rules that are bare alike give the same bare report. -/
theorem Evaluation.bare_ofVisit
    {rule changed : Rule}
    {visit other : Visit}
    (sameRule : changed.bare = rule.bare)
    (same : other.mapParts Clause.bare id = visit.mapParts Clause.bare id)
    (isTraced : Bool) :
    (ofVisit changed isTraced other).bare = (ofVisit rule isTraced visit).bare := by
  have keepsVerdict : ∀ body : Visit, (id body).verdict = body.verdict := fun _ => rfl
  obtain ⟨sameName, _, _, sameFailureEvent⟩ := Rule.bare_eq_iff.1 sameRule
  have sameVerdict : other.verdict = visit.verdict :=
    Visit.eq_of_mapParts_eq (Visit.verdict_mapParts keepsVerdict) same
  have sameAsked : other.asked = visit.asked :=
    Visit.eq_of_mapParts_eq Visit.asked_mapParts same
  have sameTrace : other.trace rule.name = visit.trace rule.name :=
    Visit.eq_of_mapParts_eq (Visit.trace_mapParts rule.name) same
  have sameFailures : other.failures.map Clause.bare = visit.failures.map Clause.bare := by
    rw [← Visit.failures_mapParts keepsVerdict, same, Visit.failures_mapParts keepsVerdict]
  cases verdict : visit.verdict <;>
    simp [bare, ofVisit, Rule.firedEvent, sameName, sameFailureEvent, sameVerdict, sameAsked,
      sameTrace, sameFailures, verdict]

namespace Executor

variable {executor : Executor} {rule : Rule}

/-- Names and events of clauses decide nothing. They may be changed, added and removed in the
executed rule and in every registered one: the execution comes to the same error, or to the same
evaluation up to the annotations of the failed clauses and the event of a rule that holds. No
explanation changes. -/
theorem execute_eq_of_bare_eq
    {other : Registry}
    {changed : Rule}
    (sameRule : changed.bare = rule.bare)
    (sameRules : other.rules.map Rule.bare = executor.registry.rules.map Rule.bare) :
    ({ executor with registry := other }.execute changed).map Evaluation.bare =
        (executor.execute rule).map Evaluation.bare ∧
      ∀ condition reannotated : Condition, reannotated.bare = condition.bare →
        reannotated.explain = condition.explain := by
  refine ⟨?report, ?explanation⟩
  case report =>
    rw [execute_eq_visit, execute_eq_visit, map_map, map_map]
    have sameOutline : ({ executor with registry := other }.visit changed).map
        (Visit.mapParts Clause.bare id) =
          (executor.visit rule).map (Visit.mapParts Clause.bare id) :=
      visitFrom_eq_of_bare_eq sameRules sameRule
    obtain ⟨error, failed, failedToo⟩ | ⟨visit, otherVisit, visited, visitedToo, same⟩ :=
      cases_of_map_eq sameOutline
    · rw [failed, failedToo]
      rfl
    · rw [visited, visitedToo]
      exact congrArg Except.ok (Evaluation.bare_ofVisit sameRule same executor.isTraced)
  case explanation =>
    intro condition reannotated same
    rw [← reannotated.explain_bare, same, condition.explain_bare]

/-- A rule that asks another one, and holds by its second clause. -/
def unlabelled : Rule where
  name := "labelled"
  condition := .any [.plain (.not (.reference "vouching")), .plain (.reference "vouching")]
  event := { type := "own" }
  failureEvent := { type := "failure" }

/-- The same rule with a name on its first clause and an event on the second one. -/
def labelled : Rule :=
  { unlabelled with
    condition := .any [
      ⟨some "first", none, .not (.reference "vouching")⟩,
      ⟨none, some { type := "second" }, .reference "vouching"⟩] }

/-- A rule that holds by its only clause, which has the given event. -/
def vouching (event : Option Event) : Rule where
  name := "vouching"
  condition := .any [
    ⟨none, event, .leaf { fact := "absent", operator := "equal", value := .null }⟩]
  event := {}
  failureEvent := {}

/-- An executor with this rule, which is asked. -/
def vouched (event : Option Event) : Executor where
  registry := (Registry.empty.registerAll [vouching event]).1
  facts := .empty

/-- With labels on its clauses and on those of the rule that it asks, the rule gives out another
event, and otherwise comes to the same. -/
theorem execute_labelled :
    labelled.bare = unlabelled.bare ∧
    (vouched (some { type := "asked" })).registry.rules.map Rule.bare =
      (vouched none).registry.rules.map Rule.bare ∧
    ((vouched (some { type := "asked" })).execute labelled).map Evaluation.bare =
      ((vouched none).execute unlabelled).map Evaluation.bare ∧
    ((vouched (some { type := "asked" })).execute labelled).map Evaluation.event =
      .ok { type := "second" } ∧
    ((vouched none).execute unlabelled).map Evaluation.event = .ok { type := "own" } := by
  have sameRules : (vouched (some { type := "asked" })).registry.rules.map Rule.bare =
      (vouched none).registry.rules.map Rule.bare := rfl
  have sameRule : labelled.bare = unlabelled.bare := rfl
  exact ⟨sameRule, sameRules, (execute_eq_of_bare_eq sameRule sameRules).1, rfl, rfl⟩

end Executor
end Verdict
