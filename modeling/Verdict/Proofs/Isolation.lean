import Verdict.Proofs.Outline

/-!
# Isolation of rules

A rule asks other rules for their verdicts, and these verdicts are all that matters to it. Two
registries whose rules give it the same verdicts lead to the same report, except for the trace:
the same verdict, event, failed clauses and rules that were asked. What those rules note while
they are evaluated stays with them.

So everything in a report is the rule's own: its events or that of one of its clauses, clauses
of its condition, and names that the condition mentions.
-/

namespace Verdict

namespace Visit

/-- A visit to which nothing belongs but its verdict. -/
def ofVerdict : Bool → Visit
  | true => .all []
  | false => .any []

theorem verdict_ofVerdict (verdict : Bool) : (ofVerdict verdict).verdict = verdict := by
  cases verdict <;> rfl

/-- A visit to another rule without anything but its verdict. -/
def verdictAlone (body : Visit) : Visit :=
  .ofVerdict body.verdict

theorem verdict_verdictAlone (body : Visit) : body.verdictAlone.verdict = body.verdict :=
  verdict_ofVerdict body.verdict

theorem mem_clauseOverrides_iff
    {clauses : List ClauseVisit}
    {event : Event} :
    event ∈ clauseOverrides clauses ↔ ∃ shown ∈ clauses, event ∈ shown.visit.overrides := by
  induction clauses with
  | nil => exact iff_of_false nofun nofun
  | cons shown rest inductionHypothesis =>
    obtain ⟨clause, visit⟩ := shown
    rw [clauseOverrides, List.mem_append, inductionHypothesis, List.exists_mem_cons_iff]

/-- The last event of visited clauses is that of one of them. -/
theorem exists_of_lastEvent
    {clauses : List ClauseVisit}
    {event : Event}
    (isLast : lastEvent none clauses = some event) :
    ∃ shown ∈ clauses, shown.clause.event = some event := by
  rw [lastEvent_eq, Option.getD_eq_iff] at isLast
  obtain isEvent | ⟨_, isNone⟩ := isLast
  · obtain ⟨shown, atEnd, carries⟩ := Option.map_eq_some_iff.1 isEvent
    exact ⟨shown, List.mem_of_getLast? atEnd, carries⟩
  · exact nomatch isNone

/-- An event that a group puts in place is that of a clause that was visited. -/
theorem exists_shows_of_mem_overrides
    {visit : Visit}
    {event : Event}
    (isPlaced : event ∈ visit.overrides) :
    ∃ place shown, visit.Shows place shown ∧ shown.clause.event = some event := by
  induction visit with
  | leaf | reference => cases isPlaced
  | not child inductionHypothesis =>
    obtain ⟨place, shown, shows, carries⟩ := inductionHypothesis isPlaced
    cases shows with
    | here found => exact ⟨_, shown, .here found, carries⟩
    | inside found shows => exact ⟨_, shown, .inside found shows, carries⟩
  | all clauses inductionHypothesis | any clauses inductionHypothesis =>
    rw [overrides, List.mem_append, mem_clauseOverrides_iff] at isPlaced
    rcases isPlaced with ⟨outer, isVisited, inside⟩ | isLast
    · obtain ⟨index, found⟩ := List.getElem?_of_mem isVisited
      obtain ⟨place, shown, shows, carries⟩ := inductionHypothesis outer isVisited inside
      exact ⟨index :: place, shown, .inside found shows, carries⟩
    · split at isLast
      · obtain ⟨shown, isVisited, carries⟩ := exists_of_lastEvent (Option.mem_toList.1 isLast)
        obtain ⟨index, found⟩ := List.getElem?_of_mem isVisited
        exact ⟨[index], shown, .here found, carries⟩
      · cases isLast

theorem mem_clauseAsked_iff
    {clauses : List ClauseVisit}
    {name : String} :
    name ∈ clauseAsked clauses ↔ ∃ shown ∈ clauses, name ∈ shown.visit.asked := by
  induction clauses with
  | nil => exact iff_of_false nofun nofun
  | cons shown rest inductionHypothesis =>
    obtain ⟨clause, visit⟩ := shown
    rw [clauseAsked, List.mem_append, inductionHypothesis, List.exists_mem_cons_iff]

end Visit

/-- A rule that is asked during a visit is mentioned. -/
theorem Condition.mentions_of_mem_asked
    {facts : Facts}
    {follow : String → Except Error Visit}
    {condition : Condition}
    {visit : Visit}
    {name : String}
    (visited : condition.visit facts follow = .ok visit)
    (isAsked : name ∈ visit.asked) :
    condition.Mentions name := by
  induction condition generalizing visit with
  | leaf comparison =>
    obtain ⟨matched, _, rfl⟩ := exists_of_map visited
    exact nomatch isAsked
  | reference other =>
    obtain ⟨body, _, rfl⟩ := exists_of_map visited
    obtain rfl : name = other := List.mem_singleton.1 isAsked
    exact .self
  | not child inductionHypothesis =>
    obtain ⟨inner, visitedChild, rfl⟩ := exists_of_map visited
    exact .not (inductionHypothesis visitedChild isAsked)
  | all clauses inductionHypothesis =>
    obtain ⟨visits, visitedClauses, rfl⟩ := exists_of_map visited
    obtain ⟨shown, isVisited, inside⟩ := Visit.mem_clauseAsked_iff.1 isAsked
    obtain ⟨isClause, visitedClause⟩ := mem_of_visitUntil visitedClauses isVisited
    exact .all isClause (inductionHypothesis _ isClause visitedClause inside)
  | any clauses inductionHypothesis =>
    obtain ⟨visits, visitedClauses, rfl⟩ := exists_of_map visited
    obtain ⟨shown, isVisited, inside⟩ := Visit.mem_clauseAsked_iff.1 isAsked
    obtain ⟨isClause, visitedClause⟩ := mem_of_visitUntil visitedClauses isVisited
    exact .any isClause (inductionHypothesis _ isClause visitedClause inside)

namespace Executor

/-- The verdict that a rule is given when it asks for that of another one. The other rule is
evaluated with the name of the asking one on the stack. -/
def consult (executor : Executor) (referrer : Rule) (name : String) : Except Error Bool :=
  executor.registry.follow (fun rule =>
    match executor.evaluateRule executor.maxDepth rule { stack := [referrer.name] } with
    | .ok evaluation _ => .ok evaluation.verdict
    | .error error _ => .error error) name

variable {executor : Executor} {rule : Rule}

/-- Where there is room for the asking rule, it is given the verdict of a visit. -/
theorem consult_eq_visit
    (room : ¬executor.maxDepth ≤ 0)
    (referrer : Rule)
    (name : String) :
    executor.consult referrer name =
      (executor.registry.follow (executor.visitFrom [referrer.name]) name).map Visit.verdict := by
  unfold consult Registry.follow
  cases found : executor.registry.get? name with
  | none => rfl
  | some rule =>
    have isRegistered := (Registry.get?_eq_some_iff.1 found).1
    have known : rule.name ∈ referrer.name :: executor.registry.names :=
      List.mem_cons_of_mem _ (List.mem_map_of_mem isRegistered)
    have orderly : executor.Orderly referrer.name [referrer.name] :=
      Orderly.nil.enter List.mem_cons_self List.not_mem_nil room
    have tracked := evaluateRule_tracks executor.maxDepth rule { stack := [referrer.name] } known
      orderly (by rw [List.length_singleton]; omega)
    simp only
    cases visited : executor.visitFrom [referrer.name] rule with
    | error error =>
      rw [visited] at tracked
      obtain ⟨later, ran, _⟩ := tracked
      rw [ran]
      rfl
    | ok visit =>
      rw [visited] at tracked
      have ran : executor.evaluateRule executor.maxDepth rule _ = .ok _ _ := tracked
      rw [ran]
      rfl

/-- The report of an execution without its trace is that of the visit. -/
theorem execute_withoutTrace (executor : Executor) (rule : Rule) :
    (executor.execute rule).map Evaluation.withoutTrace =
      (executor.visit rule).map (Evaluation.ofVisit rule false) := by
  rw [execute_eq_visit, map_map]
  rfl

/-- Executors that give a rule the same verdicts visit it with the same outline. -/
theorem visit_eq_of_consult
    {other : Registry}
    (same : ∀ name, rule.condition.Mentions name →
      { executor with registry := other }.consult rule name = executor.consult rule name) :
    ({ executor with registry := other }.visit rule).map (Visit.mapParts id Visit.verdictAlone) =
      (executor.visit rule).map (Visit.mapParts id Visit.verdictAlone) := by
  by_cases full : executor.maxDepth ≤ 0
  · have otherFull : { executor with registry := other }.maxDepth ≤ 0 := full
    rw [visit_of_full full, visit_of_full otherFull]
  · have otherRoom : ¬{ executor with registry := other }.maxDepth ≤ 0 := full
    rw [visit_of_room full, visit_of_room otherRoom]
    refine Condition.visit_eq_of_followed Visit.verdict_verdictAlone fun steps name leads => ?_
    have sameVerdict := same name leads.mentions
    rw [consult_eq_visit full, consult_eq_visit otherRoom] at sameVerdict
    refine map_eq_map_of_factors (fun body otherBody sameBody => ?_) sameVerdict
    simp only [Visit.verdictAlone, Visit.verdict_mapParts Visit.verdict_verdictAlone, sameBody]

end Executor

/-- A report without its trace does not show more of visits to other rules than their
verdicts. -/
theorem Evaluation.ofVisit_verdictAlone
    (rule : Rule)
    (visit : Visit) :
    Evaluation.ofVisit rule false (visit.mapParts id Visit.verdictAlone) =
      Evaluation.ofVisit rule false visit := by
  have sameVerdict : (visit.mapParts id Visit.verdictAlone).verdict = visit.verdict :=
    Visit.verdict_mapParts Visit.verdict_verdictAlone visit
  have sameOverrides : (visit.mapParts id Visit.verdictAlone).overrides = visit.overrides :=
    Visit.overrides_mapParts Visit.verdict_verdictAlone (fun _ => rfl) visit
  have sameFailures : (visit.mapParts id Visit.verdictAlone).failures = visit.failures := by
    rw [Visit.failures_mapParts Visit.verdict_verdictAlone, List.map_id]
  simp [ofVisit, Rule.firedEvent, sameVerdict, sameOverrides, sameFailures]

/-- An evaluation is made of what belongs to its rule: the events of the rule or of a clause of
its condition, clauses of the condition, and names that it mentions. -/
structure Evaluation.IsOwn (rule : Rule) (evaluation : Evaluation) : Prop where
  success : evaluation.verdict = true →
    evaluation.event = rule.event ∨
      ∃ place clause, rule.condition.clauseAt? place = some clause ∧
        clause.event = some evaluation.event
  failure : evaluation.verdict = false → evaluation.event = rule.failureEvent
  failed : ∀ clause ∈ evaluation.failedConditions,
    ∃ place, rule.condition.clauseAt? place = some clause
  asked : ∀ name ∈ evaluation.dependencies, rule.condition.Mentions name

namespace Executor

variable {executor : Executor} {rule : Rule} {evaluation : Evaluation}

/-- What an execution reports belongs to the rule. -/
theorem isOwn_of_execute
    (executed : executor.execute rule = .ok evaluation) :
    evaluation.IsOwn rule := by
  obtain ⟨_, visit, _, visited, rfl⟩ := exists_visit_of_execute executed
  constructor
  case success =>
    intro holds
    have fired : rule.firedEvent visit = visit.overrides.getLast?.getD rule.event := if_pos holds
    cases isLast : visit.overrides.getLast? with
    | none => exact .inl (by rw [isLast] at fired; exact fired)
    | some event =>
      obtain ⟨place, shown, shows, carries⟩ :=
        Visit.exists_shows_of_mem_overrides (List.mem_of_getLast? isLast)
      have reaches := (Condition.reaches_of_shows shows visited).1
      refine .inr ⟨place, shown.clause, Condition.clauseAt?_of_reaches reaches, ?_⟩
      rw [isLast] at fired
      exact carries.trans (congrArg some fired.symm)
  case failure =>
    intro fails
    exact if_neg (Bool.eq_false_iff.1 fails)
  case failed =>
    intro clause isReported
    have inTrail : clause ∈ visit.trail.map Prod.snd := visit.map_snd_trail ▸ isReported
    obtain ⟨⟨place, clause⟩, listed, rfl⟩ := List.mem_map.1 inTrail
    exact ⟨place, Condition.clauseAt?_of_mem_trail visited listed⟩
  case asked =>
    intro name isReported
    exact Condition.mentions_of_mem_asked visited (List.mem_eraseDups.1 isReported)

/-- Only the verdicts of other rules matter to a rule. With a registry that gives it the same
verdict for each name that its condition mentions, or the same error, its execution comes to
the same report without the trace, or to the same error. A report is made of what belongs to
the rule itself. -/
theorem execute_eq_of_consult_eq
    {other : Registry}
    (same : ∀ name, rule.condition.Mentions name →
      { executor with registry := other }.consult rule name = executor.consult rule name) :
    ({ executor with registry := other }.execute rule).map Evaluation.withoutTrace =
        (executor.execute rule).map Evaluation.withoutTrace ∧
      ∀ evaluation, executor.execute rule = .ok evaluation → evaluation.IsOwn rule := by
  refine ⟨?report, fun _ => isOwn_of_execute⟩
  rw [execute_withoutTrace, execute_withoutTrace]
  refine map_eq_map_of_factors (fun visit otherVisit changed => ?_) (visit_eq_of_consult same)
  rw [← Evaluation.ofVisit_verdictAlone rule visit, ← changed, Evaluation.ofVisit_verdictAlone]

/-- A rule that asks another one twice, and first for the opposite. -/
def inquiring : Rule where
  name := "inquiring"
  event := { type := "own" }
  failureEvent := { type := "failure" }
  condition := .any [.plain (.not (.reference "informing")), .plain (.reference "informing")]

/-- A rule that holds after one of its clauses failed, asks a further rule, and puts an event in
place of its own. -/
def informing : Rule where
  name := "informing"
  event := {}
  failureEvent := {}
  condition := .any [
    .plain (.not (.reference "further")),
    ⟨none, some { type := "inner" }, .reference "further"⟩]

/-- A rule that holds, of a given name. -/
def assenting (name : String) : Rule where
  name := name
  event := {}
  failureEvent := {}
  condition := .all []

/-- An executor with a rule that notes much while it is evaluated. -/
def informed : Executor where
  registry := (Registry.empty.registerAll [informing, assenting "further"]).1
  facts := .empty

/-- The registry in which the rule that is asked holds and does nothing else. -/
def assentingOnly : Registry :=
  (Registry.empty.registerAll [assenting "informing"]).1

/-- The inquiring rule comes to the same when the rule that it asks notes nothing, and gives out
its own event. -/
theorem execute_inquiring :
    (∀ name, inquiring.condition.Mentions name →
      { informed with registry := assentingOnly }.consult inquiring name =
        informed.consult inquiring name) ∧
    ({ informed with registry := assentingOnly }.execute inquiring).map Evaluation.withoutTrace =
      (informed.execute inquiring).map Evaluation.withoutTrace ∧
    ∃ evaluation, informed.execute inquiring = .ok evaluation ∧
      evaluation.event = { type := "own" } ∧ evaluation.dependencies = ["informing"] ∧
      evaluation.IsOwn inquiring := by
  have same : ∀ name, inquiring.condition.Mentions name →
      { informed with registry := assentingOnly }.consult inquiring name =
        informed.consult inquiring name := by
    intro name mentions
    have isReference : name ∈ ["informing", "informing"] := Condition.mem_references_iff.2 mentions
    obtain rfl : name = "informing" := by simpa using isReference
    have given : informed.consult inquiring "informing" = .ok true := rfl
    rw [given]
    rfl
  obtain ⟨sameReport, areOwn⟩ := execute_eq_of_consult_eq same
  have shown : (informed.execute inquiring).map
      (fun evaluation => (evaluation.event, evaluation.dependencies)) =
        .ok ({ type := "own" }, ["informing"]) := rfl
  obtain ⟨evaluation, executed, isShown⟩ := exists_of_map shown
  obtain ⟨event, dependencies⟩ := Prod.mk.inj isShown
  exact ⟨same, sameReport, evaluation, executed, event, dependencies, areOwn evaluation executed⟩

end Executor
end Verdict
