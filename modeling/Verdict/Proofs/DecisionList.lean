import Verdict.Proofs.FiredEvent
import Verdict.Proofs.WellFormed

/-!
# Decision lists

A rule may be written as a list of decisions, each with a name, an event and
conditions of its own. The first decision whose conditions hold decides: the rule
gives out its event, whatever events occur inside it or inside the decisions before
it, and what is listed behind it makes no difference. The decisions before it are
reported as failed.

A decision is looked at by itself through the execution of the rule that has its
conditions in place of the whole list. This says what the conditions come to without
saying how a list of them is gone through.
-/

namespace Verdict
namespace Visit

/-- Some visited clause holds if the last one does. -/
theorem anyHolds_concat
    {before : List ClauseVisit}
    {last : ClauseVisit}
    (lastHolds : last.visit.verdict = true) :
    anyHolds (before ++ [last]) = true := by
  rw [anyHolds_eq_any, List.any_append, List.any_cons, lastHolds, Bool.true_or, Bool.or_true]

/-- The last of several visited clauses is the last one that adds to what failed. -/
theorem clauseFailures_concat
    (before : List ClauseVisit)
    (last : ClauseVisit) :
    clauseFailures (before ++ [last]) =
      clauseFailures before ++
        (last.visit.failures ++ if last.visit.verdict then [] else [last.clause]) := by
  rw [clauseFailures_eq_flatMap, clauseFailures_eq_flatMap, List.flatMap_append,
    List.flatMap_singleton]

end Visit

/-- A group whose last visited clause holds gives out the event of that clause, if it has
one, whatever is inside. -/
theorem Rule.firedEvent_any
    {rule : Rule}
    {before : List ClauseVisit}
    {last : ClauseVisit}
    {event : Event}
    (lastHolds : last.visit.verdict = true)
    (carries : last.clause.event = some event) :
    rule.firedEvent (.any (before ++ [last])) = event := by
  have holds : Visit.anyHolds (before ++ [last]) = true := Visit.anyHolds_concat lastHolds
  have lastEvent : Visit.lastEvent none (before ++ [last]) = some event := by
    rw [Visit.lastEvent_eq, List.getLast?_concat]
    exact carries
  have overrides : (Visit.any (before ++ [last])).overrides =
      Visit.clauseOverrides (before ++ [last]) ++ [event] := by
    rw [Visit.overrides, if_pos holds, lastEvent]
    rfl
  have verdict : (Visit.any (before ++ [last])).verdict = true := holds
  rw [firedEvent, if_pos verdict, overrides, List.getLast?_concat]
  rfl

namespace Executor

/-- The execution of a rule with the condition of one of its clauses for the whole one. -/
def executeAlone (executor : Executor) (rule : Rule) (clause : Clause) :
    Except Error Evaluation :=
  executor.execute { rule with condition := clause.condition }

/-- Whether a clause of a rule holds. -/
def verdictOf (executor : Executor) (rule : Rule) (clause : Clause) : Except Error Bool :=
  (executor.executeAlone rule clause).map Evaluation.verdict

/-- The clauses that fail inside a clause of a rule. -/
def failuresInside (executor : Executor) (rule : Rule) (clause : Clause) : List Clause :=
  match executor.executeAlone rule clause with
  | .ok evaluation => evaluation.failedConditions
  | .error _ => []

/-- The clauses that a rule reports for one that fails: those inside it and then itself. -/
def failuresOf (executor : Executor) (rule : Rule) (clause : Clause) : List Clause :=
  executor.failuresInside rule clause ++ [clause]

/-- An execution of a rule is decided by the first of several clauses that holds: those
before it fail and are reported so, each after what fails inside it, and whatever clauses
stand behind it, the execution comes to the same. -/
structure DecidedBy (executor : Executor) (rule : Rule) (before : List Clause) (first : Clause)
    (evaluation : Evaluation) : Prop where
  noneBefore : ∀ clause ∈ before, executor.verdictOf rule clause = .ok false
  firstHolds : executor.verdictOf rule first = .ok true
  reported : evaluation.failedConditions =
    before.flatMap (executor.failuresOf rule) ++ executor.failuresInside rule first
  sameWith : ∀ others,
    executor.execute { rule with condition := .any (before ++ first :: others) } = .ok evaluation

/-- An execution of a rule is decided by none of several clauses: all of them fail and are
reported so, and the rule gives out its failure event. -/
structure DecidedByNone (executor : Executor) (rule : Rule) (clauses : List Clause)
    (evaluation : Evaluation) : Prop where
  noneHolds : ∀ clause ∈ clauses, executor.verdictOf rule clause = .ok false
  failureEvent : evaluation.event = rule.failureEvent
  reported : evaluation.failedConditions = clauses.flatMap (executor.failuresOf rule)

variable {executor : Executor} {rule : Rule}

/-- A clause that is visited while its rule is executed comes to the same alone. -/
theorem executeAlone_of_visit
    (room : ¬executor.maxDepth ≤ 0)
    {clause : Clause}
    {visit : Visit}
    (visited : clause.condition.visit executor.facts
      (executor.registry.follow (executor.visitFrom [rule.name])) = .ok visit) :
    executor.executeAlone rule clause = .ok (.ofVisit rule executor.isTraced visit) :=
  execute_of_visit room visited

theorem verdictOf_of_visit
    (room : ¬executor.maxDepth ≤ 0)
    {clause : Clause}
    {visit : Visit}
    (visited : clause.condition.visit executor.facts
      (executor.registry.follow (executor.visitFrom [rule.name])) = .ok visit) :
    executor.verdictOf rule clause = .ok visit.verdict := by
  rw [verdictOf, executeAlone_of_visit room visited]
  rfl

theorem failuresInside_of_visit
    (room : ¬executor.maxDepth ≤ 0)
    {clause : Clause}
    {visit : Visit}
    (visited : clause.condition.visit executor.facts
      (executor.registry.follow (executor.visitFrom [rule.name])) = .ok visit) :
    executor.failuresInside rule clause = visit.failures := by
  rw [failuresInside, executeAlone_of_visit room visited]
  rfl

/-- Clauses of which none holds fail one by one, each after the clauses inside it. -/
theorem failures_of_open
    (room : ¬executor.maxDepth ≤ 0)
    {visits : List ClauseVisit}
    (areOpen : ∀ shown ∈ visits, Condition.IsOpen executor.facts
      (executor.registry.follow (executor.visitFrom [rule.name])) true shown) :
    (∀ clause ∈ visits.map ClauseVisit.clause, executor.verdictOf rule clause = .ok false) ∧
      Visit.clauseFailures visits =
        (visits.map ClauseVisit.clause).flatMap (executor.failuresOf rule) := by
  constructor
  · intro clause member
    obtain ⟨shown, isVisited, rfl⟩ := List.mem_map.1 member
    obtain ⟨visited, isOpen⟩ := areOpen shown isVisited
    rw [verdictOf_of_visit room visited, Bool.eq_false_iff.2 isOpen]
  · rw [Visit.clauseFailures_eq_flatMap, List.flatMap_map]
    refine List.flatMap_congr fun shown isVisited => ?_
    obtain ⟨visited, isOpen⟩ := areOpen shown isVisited
    rw [failuresOf, failuresInside_of_visit room visited, if_neg isOpen]

/-- The clauses of a rule any of which must hold are decided by the first one that does,
or by none. -/
theorem execute_any
    {clauses : List Clause}
    {evaluation : Evaluation}
    (isAny : rule.condition = .any clauses)
    (executed : executor.execute rule = .ok evaluation) :
    (evaluation.verdict = true ∧ ∃ before first after,
      clauses = before ++ first :: after ∧ executor.DecidedBy rule before first evaluation ∧
        ∀ event, first.event = some event → evaluation.event = event) ∨
    (evaluation.verdict = false ∧ executor.DecidedByNone rule clauses evaluation) := by
  obtain ⟨room, visit, _, visited, rfl⟩ := exists_visit_of_execute executed
  rw [isAny] at visited
  obtain ⟨visits, visitedClauses, rfl⟩ := exists_of_map visited
  -- a clause that was passed over was visited under the name of the rule, as it is alone
  rcases Condition.visitUntil_cases visitedClauses with ⟨rfl, areOpen⟩ | settles
  · obtain ⟨noneHolds, reported⟩ := failures_of_open room areOpen
    have fails : Visit.anyHolds visits = false := by
      rw [Visit.anyHolds_eq_any]
      exact List.any_eq_false.2 fun shown isVisited => (areOpen shown isVisited).isOpen
    have failureEvent : rule.firedEvent (.any visits) = rule.failureEvent :=
      if_neg (Bool.eq_false_iff.1 fails)
    exact .inr ⟨fails, noneHolds, failureEvent, reported⟩
  · obtain ⟨before, last, after, rfl, rfl, areOpen, visitedLast, lastHolds⟩ := settles
    obtain ⟨noneBefore, reported⟩ := failures_of_open room areOpen
    refine .inl ⟨Visit.anyHolds_concat lastHolds, before.map ClauseVisit.clause, last.clause, after, rfl,
      ⟨noneBefore, ?firstHolds, ?reported, ?sameWith⟩, ?event⟩
    case firstHolds => rw [verdictOf_of_visit room visitedLast, lastHolds]
    case reported =>
      change Visit.clauseFailures (before ++ [last]) = _
      rw [Visit.clauseFailures_concat, reported, failuresInside_of_visit room visitedLast, lastHolds]
      exact congrArg _ (List.append_nil _)
    case sameWith =>
      intro others
      rw [execute_eq_visit, visit_of_room room, Condition.visit,
        Condition.visitUntil_append areOpen,
        Condition.visitUntil_of_settled visitedLast lastHolds]
      cases last
      rfl
    case event =>
      intro event carries
      exact Rule.firedEvent_any lastHolds carries

/-- A rule that is made from a list of decisions is decided by the first of them that holds.
It holds if the conditions of some decision do. Then it gives out the event of the first
such decision, the decisions before it are those that failed at the top, each after what
failed inside it, and any decisions behind it give the same evaluation. If no decision
holds, all of them failed, and the rule gives out its failure event. -/
theorem decided_by_first
    {definition : RuleDefinition}
    {decisions : List Decision}
    {evaluation : Evaluation}
    (listed : definition.decisions = some decisions)
    (made : definition.toRule = .ok rule)
    (executed : executor.execute rule = .ok evaluation) :
    ∃ clauses, rule.condition = .any clauses ∧
      List.Forall₂ Decision.Describes decisions clauses ∧
      (evaluation.verdict = true ↔
        ∃ clause ∈ clauses, executor.verdictOf rule clause = .ok true) ∧
      (evaluation.verdict = true → ∃ before first after,
        clauses = before ++ first :: after ∧ executor.DecidedBy rule before first evaluation ∧
          first.event = some evaluation.event) ∧
      (evaluation.verdict = false → executor.DecidedByNone rule clauses evaluation) := by
  have ofDefinition := (RuleDefinition.toRule_eq_ok_iff.1 made).condition
  obtain ⟨_, _, clauses, described, isAny⟩ :=
    (RuleDefinition.toCondition_eq_ok_iff_of_decisions listed).1 ofDefinition
  refine ⟨clauses, isAny, described, ?_⟩
  rcases execute_any isAny executed with ⟨holds, decided⟩ | ⟨fails, decided⟩
  · obtain ⟨before, first, after, split, decided, fired⟩ := decided
    have isClause : first ∈ clauses := split ▸ List.mem_append_right _ List.mem_cons_self
    have carries : first.event = some evaluation.event := by
      obtain ⟨decision, _, ofFirst⟩ := exists_of_mem_forall₂ described isClause
      rw [ofFirst.event, fired _ ofFirst.event]
    refine ⟨?iff, ?holds, ?fails⟩
    case iff => exact ⟨fun _ => ⟨first, isClause, decided.firstHolds⟩, fun _ => holds⟩
    case holds => exact fun _ => ⟨before, first, after, split, decided, carries⟩
    case fails => exact fun failed => absurd (holds.symm.trans failed) (by decide)
  · refine ⟨?iff, ?holds, ?fails⟩
    case iff =>
      refine ⟨fun held => absurd (held.symm.trans fails) (by decide), ?_⟩
      rintro ⟨clause, isClause, clauseHolds⟩
      exact nomatch (decided.noneHolds clause isClause).symm.trans clauseHolds
    case holds => exact fun held => absurd (held.symm.trans fails) (by decide)
    case fails => exact fun _ => decided

/-- A condition that holds after a group inside it has put an event in place. -/
def holding (event : Event) : Condition :=
  .any [⟨none, some event, .all []⟩]

/-- A condition that fails after a group inside it has put an event in place. -/
def failing (event : Event) : Condition :=
  .all [.plain (holding event), .plain (.any [])]

/-- A definition with three decisions, of which the first one fails and the second one
holds. The third one cannot be evaluated. -/
def secondHolds : RuleDefinition where
  name := some "second holds"
  event := some { type := "own" }
  decisions := some [
    ⟨"first", { type := "first" }, .ofCondition (failing { type := "inside first" })⟩,
    ⟨"second", { type := "second" }, .ofCondition (holding { type := "inside second" })⟩,
    ⟨"third", { type := "third" }, .ofCondition (.reference "unknown")⟩]

/-- The rule that the definition with three decisions describes. -/
def secondHoldsRule : Rule where
  name := "second holds"
  event := { type := "own" }
  failureEvent := { type := "second holds" }
  condition := .any [
    ⟨some "first", some { type := "first" }, failing { type := "inside first" }⟩,
    ⟨some "second", some { type := "second" }, holding { type := "inside second" }⟩,
    ⟨some "third", some { type := "third" }, .reference "unknown"⟩]

theorem toRule_secondHolds : secondHolds.toRule = .ok secondHoldsRule := by
  have ofHolding : ∀ event, (holding event).WellFormed := fun _ =>
    .any (List.forall_mem_singleton.2 (.all nofun))
  have ofFailing : ∀ event, (failing event).WellFormed := fun event =>
    .all (List.forall_mem_cons.2 ⟨ofHolding event, List.forall_mem_singleton.2 (.any nofun)⟩)
  have ofThird : (Condition.reference "unknown").WellFormed := .reference (by decide)
  refine RuleDefinition.toRule_eq_ok_iff.2 ⟨rfl, ?_, rfl, rfl, by decide, by decide⟩
  refine (RuleDefinition.toCondition_eq_ok_iff_of_decisions rfl).2 ⟨rfl, nofun, _, ?_, rfl⟩
  refine .cons ⟨rfl, rfl, ?first⟩ (.cons ⟨rfl, rfl, ?second⟩ (.cons ⟨rfl, rfl, ?third⟩ .nil))
  case first => exact ConditionSpec.toCondition_ofCondition (ofFailing _)
  case second => exact ConditionSpec.toCondition_ofCondition (ofHolding _)
  case third => exact ConditionSpec.toCondition_ofCondition ofThird

/-- The second of three decisions holds, and the rule gives out its event. -/
theorem decided_by_second :
    ∃ evaluation clauses before first after,
      secondHolds.toRule = .ok secondHoldsRule ∧
        bare.execute secondHoldsRule = .ok evaluation ∧ evaluation.verdict = true ∧
        secondHoldsRule.condition = .any clauses ∧ clauses = before ++ first :: after ∧
        bare.DecidedBy secondHoldsRule before first evaluation ∧
        first.event = some evaluation.event ∧ evaluation.event = { type := "second" } := by
  have shown : (bare.execute secondHoldsRule).map
      (fun evaluation => (evaluation.verdict, evaluation.event)) =
      .ok (true, { type := "second" }) := rfl
  obtain ⟨evaluation, executed, same⟩ := exists_of_map shown
  obtain ⟨holds, fired⟩ := Prod.mk.inj same
  obtain ⟨clauses, isAny, _, _, decided, _⟩ := decided_by_first rfl toRule_secondHolds executed
  obtain ⟨before, first, after, split, decidedBy, carries⟩ := decided holds
  exact ⟨evaluation, clauses, before, first, after, toRule_secondHolds, executed, holds, isAny,
    split, decidedBy, carries, fired⟩

end Executor

end Verdict
