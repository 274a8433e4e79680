import Verdict.Proofs.FailureTrail
import Verdict.Proofs.Queries

/-!
# Failures at the root

An outcome of a target that does not hold reports the clauses that failed, inner ones before
outer ones. This module shows which clauses of the root are among them. Of a group all of which
must hold it is the first one that fails, and of a group any of which must hold they are all
clauses in their order; the last one of them ends the report. A root of another kind reports
nothing at all.

That a negation reports nothing depends on what it negates: a leaf or a reference has no
clauses, but a group that is negated would report its own.
-/

namespace Verdict

namespace Visit

/-! ## The trail of a visit -/

/-- The entries of a trail that are clauses of the root: their places have one index only. -/
def outermost (trail : List (Place × Clause)) : List (Place × Clause) :=
  trail.filter fun entry => entry.1.length == 1

variable {visit : Visit} {before : List ClauseVisit} {last : ClauseVisit}

/-- Of what a visited clause adds to a trail, only itself is a clause of the root. -/
theorem outermost_trailOf
    (shown : ClauseVisit)
    (index : Nat) :
    outermost (trailOf shown index) =
      if shown.visit.verdict then [] else [([index], shown.clause)] := by
  -- a clause that is further inside has one index more than in the trail of the visit
  have inside :
      outermost (shown.visit.trail.map fun entry => (index :: entry.1, entry.2)) = [] := by
    rw [outermost, List.filter_eq_nil_iff]
    intro entry isEntry
    obtain ⟨⟨place, clause⟩, listed, rfl⟩ := List.mem_map.1 isEntry
    obtain ⟨_, _, _, rfl, _⟩ := mem_trail_iff_exists.1 listed
    simp
  rw [trailOf, outermost, List.filter_append, ← outermost, inside, List.nil_append]
  split <;> rfl

/-- The clauses of the root in a trail are the visited ones that failed. -/
theorem outermost_trail (visit : Visit) :
    outermost visit.trail =
      (visit.clauses.zipIdx.filter fun entry => !entry.1.visit.verdict).map
        fun entry => ([entry.2], entry.1.clause) := by
  rw [trail_eq_flatMap, outermost, List.filter_flatMap]
  induction visit.clauses.zipIdx with
  | nil => rfl
  | cons entry rest inductionHypothesis =>
    rw [List.flatMap_cons, inductionHypothesis, ← outermost, outermost_trailOf]
    cases verdict : entry.1.visit.verdict <;> simp [verdict]

/-- A trail ends with the last visited clause if that one failed. -/
theorem getLast?_trail
    (areClauses : visit.clauses = before ++ [last])
    (lastFails : last.visit.verdict = false) :
    visit.trail.getLast? = some ([before.length], last.clause) := by
  rw [trail_eq_flatMap, areClauses, List.zipIdx_append, List.flatMap_append]
  simp [trailOf, lastFails]

/-- If only the last visited clause failed, it is the only clause of the root in the trail. -/
theorem outermost_trail_of_last
    (areClauses : visit.clauses = before ++ [last])
    (beforeHold : ∀ shown ∈ before, shown.visit.verdict = true)
    (lastFails : last.visit.verdict = false) :
    outermost visit.trail = [([before.length], last.clause)] := by
  have noneBefore : before.zipIdx.filter (fun entry => !entry.1.visit.verdict) = [] := by
    rw [List.filter_eq_nil_iff]
    intro entry isEntry
    simp [beforeHold entry.1 (List.fst_mem_of_mem_zipIdx isEntry)]
  rw [outermost_trail, areClauses, List.zipIdx_append, List.filter_append, noneBefore]
  simp [lastFails]

/-- If all visited clauses failed, all of them are in the trail as clauses of the root. -/
theorem outermost_trail_of_all
    (allFail : ∀ shown ∈ visit.clauses, shown.visit.verdict = false) :
    outermost visit.trail =
      (visit.clauses.map ClauseVisit.clause).zipIdx.map fun entry => ([entry.2], entry.1) := by
  have everyOne : visit.clauses.zipIdx.filter (fun entry => !entry.1.visit.verdict) =
      visit.clauses.zipIdx := by
    rw [List.filter_eq_self]
    intro entry isEntry
    simp [allFail entry.1 (List.fst_mem_of_mem_zipIdx isEntry)]
  rw [outermost_trail, everyOne, List.zipIdx_map, List.map_map]
  rfl

end Visit

/-! ## The trail of a rule -/

/-- A condition that reports no clause when it does not hold: anything but a group, or a group
without clauses any of which must hold. -/
def Condition.ReportsNothing : Condition → Prop
  | .all _ => False
  | .any clauses => clauses = []
  | .not _ => True
  | .reference _ => True
  | .leaf _ => True

namespace Executor

variable {executor : Executor} {rule : Rule} {visit : Visit} {clauses : List Clause}
  {trail : List (Place × Clause)}

/-- A trail ends with the first clause of the root that fails, and has no other clause of the
root. -/
def EndsWithFirst (executor : Executor) (rule : Rule) (clauses : List Clause)
    (trail : List (Place × Clause)) : Prop :=
  ∃ before first after, clauses = before ++ first :: after ∧
    (∀ clause ∈ before, executor.verdictOf rule clause = .ok true) ∧
    executor.verdictOf rule first = .ok false ∧
    Visit.outermost trail = [([before.length], first)] ∧
    trail.getLast? = some ([before.length], first)

/-- A trail has all clauses of the root, in their order, and ends with the last of them. -/
structure HasEveryClause (clauses : List Clause) (trail : List (Place × Clause)) : Prop where
  outermost : Visit.outermost trail = clauses.zipIdx.map fun entry => ([entry.2], entry.1)
  last : ∀ before last, clauses = before ++ [last] →
    trail.getLast? = some ([before.length], last)

/-- Of a group all of which must hold, the first clause that fails ends the trail. -/
theorem endsWithFirst_of_visit
    (room : ¬executor.maxDepth ≤ 0)
    (visited : (Condition.all clauses).visit executor.facts
      (executor.registry.follow (executor.visitFrom [rule.name])) = .ok visit)
    (fails : visit.verdict = false) :
    executor.EndsWithFirst rule clauses visit.trail := by
  obtain ⟨visits, visitedClauses, rfl⟩ := exists_of_map visited
  rcases Condition.visitUntil_cases visitedClauses with ⟨rfl, areOpen⟩ | settles
  · -- no clause failed, so the group would hold
    have holds : Visit.allHold visits = true := by
      rw [Visit.allHold_eq_all, List.all_eq_true]
      intro shown isVisited
      simpa using (areOpen shown isVisited).isOpen
    exact nomatch holds.symm.trans fails
  · obtain ⟨before, last, after, rfl, rfl, areOpen, visitedLast, lastFails⟩ := settles
    have beforeHold : ∀ shown ∈ before, shown.visit.verdict = true := by
      intro shown isVisited
      simpa using (areOpen shown isVisited).isOpen
    refine ⟨before.map ClauseVisit.clause, last.clause, after, rfl, ?before, ?first, ?_, ?_⟩
    case before =>
      intro clause member
      obtain ⟨shown, isVisited, rfl⟩ := List.mem_map.1 member
      rw [verdictOf_of_visit room (areOpen shown isVisited).visited, beforeHold shown isVisited]
    case first => rw [verdictOf_of_visit room visitedLast, lastFails]
    · rw [List.length_map]
      exact Visit.outermost_trail_of_last rfl beforeHold lastFails
    · rw [List.length_map]
      exact Visit.getLast?_trail rfl lastFails

/-- Of a group any of which must hold, every clause is in the trail. -/
theorem hasEveryClause_of_visit
    (visited : (Condition.any clauses).visit executor.facts
      (executor.registry.follow (executor.visitFrom [rule.name])) = .ok visit)
    (fails : visit.verdict = false) :
    HasEveryClause clauses visit.trail := by
  obtain ⟨visits, visitedClauses, rfl⟩ := exists_of_map visited
  have allFail : ∀ shown ∈ visits, shown.visit.verdict = false := by
    have noneHolds : Visit.anyHolds visits = false := fails
    rw [Visit.anyHolds_eq_any, List.any_eq_false] at noneHolds
    simpa using noneHolds
  rcases Condition.visitUntil_cases visitedClauses with ⟨rfl, _⟩ | settles
  · refine ⟨Visit.outermost_trail_of_all allFail, ?last⟩
    case last =>
      intro before last split
      obtain ⟨visitsBefore, visitsLast, rfl, rfl, isLast⟩ := List.map_eq_append_iff.1 split
      obtain ⟨shown, rfl, rfl⟩ := List.map_eq_singleton_iff.1 isLast
      rw [List.length_map]
      exact Visit.getLast?_trail rfl (allFail shown (by simp))
  · -- a clause settled the group, so it would hold
    obtain ⟨before, last, _, rfl, _, _, _, lastHolds⟩ := settles
    exact nomatch lastHolds.symm.trans (allFail last (by simp))

/-- What can be negated reports nothing. -/
theorem trail_of_isNegatable
    {child : Condition}
    {follow : String → Except Error Visit}
    (isNegatable : child.IsNegatable)
    (visited : child.visit executor.facts follow = .ok visit) :
    visit.trail = [] := by
  cases child with
  | leaf comparison =>
    obtain ⟨matched, _, rfl⟩ := exists_of_map visited
    rfl
  | reference name =>
    obtain ⟨body, _, rfl⟩ := exists_of_map visited
    rfl
  | all | any | not => exact isNegatable.elim

/-- The trail of a rule that does not hold is empty exactly if its condition reports nothing. -/
theorem trail_eq_nil_iff
    (room : ¬executor.maxDepth ≤ 0)
    (plain : rule.condition.NegatesPlainly)
    (visited : rule.condition.visit executor.facts
      (executor.registry.follow (executor.visitFrom [rule.name])) = .ok visit)
    (fails : visit.verdict = false) :
    visit.trail = [] ↔ rule.condition.ReportsNothing := by
  cases isCondition : rule.condition with
  | all clauses =>
    rw [isCondition] at visited
    obtain ⟨_, _, _, _, _, _, _, ends⟩ := endsWithFirst_of_visit room visited fails
    refine iff_of_false ?_ id
    intro isEmpty
    simp [isEmpty] at ends
  | any clauses =>
    rw [isCondition] at visited
    have hasEvery := hasEveryClause_of_visit visited fails
    constructor
    · intro isEmpty
      have noClause := hasEvery.outermost
      rw [isEmpty] at noClause
      exact List.zipIdx_eq_nil_iff.1 (List.map_eq_nil_iff.1 noClause.symm)
    · rintro rfl
      obtain ⟨visits, visitedClauses, rfl⟩ := exists_of_map visited
      obtain rfl : [] = visits := Except.ok.inj visitedClauses
      rfl
  | not child =>
    rw [isCondition] at visited
    obtain ⟨inner, visitedChild, rfl⟩ := exists_of_map visited
    have isNegatable : child.IsNegatable := plain child (isCondition ▸ .self)
    have noneInside : inner.trail = [] := trail_of_isNegatable isNegatable visitedChild
    exact iff_of_true noneInside trivial
  | reference | leaf =>
    rw [isCondition] at visited
    refine iff_of_true (trail_of_isNegatable ?_ visited) ?_ <;> trivial

end Executor

namespace Engine

variable {engine : Engine} {outcome : Outcome} {evaluation : Evaluation}

/-- The full evaluation of the target is the execution of a registered rule. -/
theorem exists_target_of_evaluateDetailed
    (evaluated : engine.evaluateDetailed = .ok evaluation) :
    ∃ rule ∈ engine.registry.rules, engine.target = some rule.name ∧
      engine.executor.execute rule = .ok evaluation := by
  obtain ⟨name, isTarget, executedByName⟩ := bind_eq_ok_iff.1 evaluated
  obtain ⟨rule, found, executed⟩ := bind_eq_ok_iff.1 executedByName
  obtain ⟨isRegistered, rfl⟩ := Registry.get?_eq_some_iff.1 (Registry.get_eq_ok_iff.1 found)
  refine ⟨rule, isRegistered, ?_, executed⟩
  unfold targetName at isTarget
  split at isTarget
  case h_1 isSome => rw [isSome, Except.ok.inj isTarget]
  case h_2 => exact nomatch isTarget

/-- An outcome of a target that does not hold reports the clauses that failed, if they are asked
for. There are none exactly if the condition of the target is no group, or an empty one any of
which must hold. For a group all of which must hold, the first clause that fails ends the report
and is the only clause of the group in it. For a group any of which must hold, all its clauses
are in the report, in order, and the last of them ends it. -/
theorem failures_end_at_root
    (plain : ∀ rule ∈ engine.registry.rules, rule.condition.NegatesPlainly)
    (included : engine.options.includeFailedConditions = true)
    (evaluated : engine.evaluate = .ok outcome)
    (fails : outcome.matched = false) :
    ∃ rule ∈ engine.registry.rules, engine.target = some rule.name ∧
      ∃ visit, engine.executor.visit rule = .ok visit ∧
        outcome.failedConditions = some (visit.trail.map Prod.snd) ∧
        (outcome.failedConditions = some [] ↔ rule.condition.ReportsNothing) ∧
        (∀ clauses, rule.condition = .all clauses →
          engine.executor.EndsWithFirst rule clauses visit.trail) ∧
        ∀ clauses, rule.condition = .any clauses →
          Executor.HasEveryClause clauses visit.trail := by
  obtain ⟨_, evaluation, detailed, reports⟩ := evaluate_eq_ok_iff.1 evaluated
  obtain ⟨rule, isRegistered, isTarget, executed⟩ := exists_target_of_evaluateDetailed detailed
  obtain ⟨room, visit, visited, visitedCondition, rfl⟩ :=
    Executor.exists_visit_of_execute executed
  have visitFails : visit.verdict = false := reports.matched.symm.trans fails
  have reported : outcome.failedConditions = some (visit.trail.map Prod.snd) := by
    rw [reports.failedConditions]
    exact ⟨included, visitFails, visit.map_snd_trail.symm⟩
  refine ⟨rule, isRegistered, isTarget, visit, visited, reported, ?empty, ?all, ?any⟩
  case empty =>
    rw [reported, Option.some_inj, List.map_eq_nil_iff]
    exact Executor.trail_eq_nil_iff room (plain rule isRegistered) visitedCondition visitFails
  case all =>
    intro clauses isAll
    rw [isAll] at visitedCondition
    exact Executor.endsWithFirst_of_visit room visitedCondition visitFails
  case any =>
    intro clauses isAny
    rw [isAny] at visitedCondition
    exact Executor.hasEveryClause_of_visit visitedCondition visitFails

/-- A rule whose first clause holds after a clause inside it failed, whose second clause fails,
and whose third clause is not visited. -/
def stopping : Rule where
  name := "stopping"
  event := { type := "own" }
  failureEvent := { type := "failure" }
  condition := .all [
    .plain (.any [
      .plain (.not (.leaf { fact := "absent", operator := "equal", value := .null })),
      .plain (.all [])]),
    .plain (.any [.plain (.any [])]),
    .plain (.reference "unknown")]

/-- An engine whose only rule is the stopping one, which is the target. -/
def stoppingEngine : Engine where
  registry := (Registry.empty.registerAll [stopping]).1
  target := some "stopping"

theorem wellFormed_stopping : stopping.condition.WellFormed := by
  have holding : (Condition.all []).WellFormed := .all nofun
  have failing : (Condition.any []).WellFormed := .any nofun
  have negation : (Condition.not (.leaf ⟨"absent", none, "equal", .null⟩)).WellFormed :=
    .not trivial (.leaf (by decide) (by decide))
  have unknown : (Condition.reference "unknown").WellFormed := .reference (by decide)
  apply Condition.WellFormed.all
  refine List.forall_mem_cons.2 ⟨.any ?first, List.forall_mem_cons.2 ⟨.any ?second, ?third⟩⟩
  case first => exact List.forall_mem_cons.2 ⟨negation, List.forall_mem_singleton.2 holding⟩
  case second => exact List.forall_mem_singleton.2 failing
  case third => exact List.forall_mem_singleton.2 unknown

/-- The second clause of the stopping rule ends the report of its failures. -/
theorem failures_of_stopping :
    ∃ outcome, stoppingEngine.evaluate = .ok outcome ∧ outcome.matched = false ∧
      (∀ rule ∈ stoppingEngine.registry.rules, rule.condition.NegatesPlainly) ∧
      stoppingEngine.options.includeFailedConditions = true ∧
      ∃ visit, stoppingEngine.executor.visit stopping = .ok visit ∧
        outcome.failedConditions = some (visit.trail.map Prod.snd) ∧
        visit.trail.map Prod.fst = [[0, 0], [1, 0], [1]] ∧
        stoppingEngine.executor.EndsWithFirst stopping stopping.condition.clauses visit.trail := by
  have plain : ∀ rule ∈ stoppingEngine.registry.rules, rule.condition.NegatesPlainly :=
    List.forall_mem_singleton.2 wellFormed_stopping.negatesPlainly
  have shown : stoppingEngine.evaluate.map Outcome.matched = .ok false := rfl
  obtain ⟨outcome, evaluated, fails⟩ := exists_of_map shown
  obtain ⟨rule, isRegistered, _, visit, visited, reported, _, endsWithFirst, _⟩ :=
    failures_end_at_root plain rfl evaluated fails
  obtain rfl : rule = stopping := List.mem_singleton.1 isRegistered
  have places : (stoppingEngine.executor.visit stopping).map
      (fun visit => visit.trail.map Prod.fst) = .ok [[0, 0], [1, 0], [1]] := by
    rw [Executor.visit, Executor.visitFrom, if_neg (by decide), if_neg (by decide)]
    rfl
  rw [visited] at places
  exact ⟨outcome, evaluated, fails, plain, rfl, visit, visited, reported, Except.ok.inj places,
    endsWithFirst _ rfl⟩

end Engine
end Verdict
