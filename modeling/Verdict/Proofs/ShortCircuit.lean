import Verdict.Proofs.Outline

/-!
# Clauses behind the deciding one

The clauses of a group are evaluated up to the one that decides it: the first one that comes to
the settling verdict, or whose evaluation fails. What stands behind that clause is not looked
at, so it may be replaced by any other clauses. This holds for a group anywhere in the executed
rule or in a rule that is entered.

A rule that is entered more than once is visited in the same way each time, but for one
difference: the limit of the depth may be reached the second time only. Then the clauses behind
the one that fails were looked at the first time. So a clause that decides a group by failing
must not have been passed in another visit to the group.
-/

namespace Verdict

/-! ## Replacement -/

/-- What a clause carries beside its condition. -/
def Clause.heading (clause : Clause) : Clause :=
  { clause with condition := .all [] }

namespace Condition

/-- A condition with other clauses behind a clause of one of its groups, to which the steps
lead. Where they do not lead to a group, the condition stays as it is. -/
def replaceBehind (index : Nat) (others : List Clause) : List Step → Condition → Condition
  | [], .all clauses => .all (clauses.take (index + 1) ++ others)
  | [], .any clauses => .any (clauses.take (index + 1) ++ others)
  | .not :: steps, .not child => .not (child.replaceBehind index others steps)
  | .all place :: steps, .all clauses =>
    .all (clauses.modify place fun clause =>
      { clause with condition := clause.condition.replaceBehind index others steps })
  | .any place :: steps, .any clauses =>
    .any (clauses.modify place fun clause =>
      { clause with condition := clause.condition.replaceBehind index others steps })
  | _, condition => condition

/-- The clause of an index is reached and settles its group. -/
def SettledAt (verdictOf : Clause → Except Error Bool) (group : Condition) (index : Nat) : Prop :=
  ∃ clause, group.GoesTo verdictOf index clause ∧ verdictOf clause = .ok group.settling

/-- The clause of an index is reached and its evaluation fails. -/
def FailsAt (verdictOf : Clause → Except Error Bool) (group : Condition) (index : Nat) : Prop :=
  ∃ clause error, group.GoesTo verdictOf index clause ∧ verdictOf clause = .error error

/-- The clauses of a group are not passed up to an index: one of them settles it or fails. -/
def StopsBy (verdictOf : Clause → Except Error Bool) (group : Condition) (index : Nat) : Prop :=
  ∃ clause ∈ group.clauses.take (index + 1), verdictOf clause ≠ .ok (!group.settling)

/-! ### Clauses up to the deciding one -/

section

variable {verdictOf : Clause → Except Error Bool} {group : Condition} {index place : Nat}

/-- A clause that is reached in a group that stops by an index has no greater index. -/
theorem StopsBy.lt
    (stops : group.StopsBy verdictOf index)
    (areOpen : ∀ earlier ∈ group.clauses.take place, verdictOf earlier = .ok (!group.settling)) :
    place < (group.clauses.take (index + 1)).length := by
  obtain ⟨clause, isStopping, isClosed⟩ := stops
  by_contra beyond
  refine isClosed (areOpen clause ?_)
  rw [List.length_take, Nat.lt_min, not_and_or, Nat.not_lt, Nat.not_lt] at beyond
  rcases beyond with within | atEnd
  · exact List.take_subset_take_left _ within isStopping
  · rw [List.take_of_length_le atEnd]
    exact List.mem_of_mem_take isStopping

/-- Behind an index by which a group stops, other clauses are not reached. -/
theorem StopsBy.getElem?_append
    (stops : group.StopsBy verdictOf index)
    (areOpen : ∀ earlier ∈ group.clauses.take place, verdictOf earlier = .ok (!group.settling))
    (others : List Clause) :
    (group.clauses.take (index + 1) ++ others)[place]? = group.clauses[place]? := by
  have isBefore := stops.lt areOpen
  rw [List.getElem?_append_left isBefore, List.getElem?_take]
  rw [List.length_take] at isBefore
  exact if_pos (by omega)

end

/-! ## Visits after a replacement -/

section

variable {facts : Facts} {follow otherFollow : String → Except Error Visit} {index : Nat}
  {steps : List Step} {condition : Condition}

/-- A clause that is reached corresponds to the one of its index after a change of one clause. -/
theorem rel_getElem?_modify
    {onClause : Clause → Clause}
    {onBody : Visit → Visit}
    {change : Clause → Clause}
    {clauses : List Clause}
    {place other : Nat}
    (sameClause : ∀ clause, onClause (change clause) = onClause clause)
    (sameOutline : ∀ clause, clauses[other]? = some clause →
      (clause.condition.visit facts otherFollow).map (Visit.mapParts onClause onBody) =
        (clause.condition.visit facts follow).map (Visit.mapParts onClause onBody))
    (changed : ∀ clause, clauses[other]? = some clause → place = other →
      ((change clause).condition.visit facts otherFollow).map (Visit.mapParts onClause onBody) =
        (clause.condition.visit facts follow).map (Visit.mapParts onClause onBody)) :
    Option.Rel (Correspond onClause onBody facts follow otherFollow)
      clauses[other]? (clauses.modify place change)[other]? := by
  rw [List.getElem?_modify]
  cases found : clauses[other]? with
  | none => exact .none
  | some clause =>
    refine .some ?_
    split
    case isTrue isPlace => exact ⟨sameClause clause, changed clause found isPlace⟩
    case isFalse => exact ⟨rfl, sameOutline clause found⟩

/-- If the visits to rules that are asked have the same outline, so has the visit to a group
after a replacement behind an index by which it stops. -/
theorem visit_replaceBehind_nil
    (stops : condition.StopsBy (clauseVerdict facts follow) index)
    (followed : ∀ more name,
      condition.LeadsTo (clauseVerdict facts follow) more (.reference name) →
        (otherFollow name).map (Visit.mapParts Clause.heading id) =
          (follow name).map (Visit.mapParts Clause.heading id))
    (others : List Clause) :
    ((condition.replaceBehind index others []).visit facts otherFollow).map
        (Visit.mapParts Clause.heading id) =
      (condition.visit facts follow).map (Visit.mapParts Clause.heading id) := by
  have keepsVerdict : ∀ body : Visit, (id body).verdict = body.verdict := fun _ => rfl
  cases condition with
  | leaf | reference | not => exact visit_eq_of_followed keepsVerdict followed
  | all clauses =>
    refine visit_all_eq_of_correspond keepsVerdict fun place areOpen => ?_
    have isKept : (clauses.take (index + 1) ++ others)[place]? = clauses[place]? :=
      stops.getElem?_append areOpen others
    rw [isKept]
    refine rel_getElem? fun clause found => ?_
    exact visit_eq_of_followed keepsVerdict fun more name leads =>
      followed _ name (.all ⟨found, areOpen⟩ leads)
  | any clauses =>
    refine visit_any_eq_of_correspond keepsVerdict fun place areOpen => ?_
    have isKept : (clauses.take (index + 1) ++ others)[place]? = clauses[place]? :=
      stops.getElem?_append areOpen others
    rw [isKept]
    refine rel_getElem? fun clause found => ?_
    exact visit_eq_of_followed keepsVerdict fun more name leads =>
      followed _ name (.any ⟨found, areOpen⟩ leads)

/-- The same holds for a group in a condition, if the group is reached at all. -/
theorem visit_replaceBehind
    (stops : ∀ group, condition.LeadsTo (clauseVerdict facts follow) steps group →
      group.StopsBy (clauseVerdict facts follow) index)
    (followed : ∀ more name,
      condition.LeadsTo (clauseVerdict facts follow) more (.reference name) →
        (otherFollow name).map (Visit.mapParts Clause.heading id) =
          (follow name).map (Visit.mapParts Clause.heading id))
    (others : List Clause) :
    ((condition.replaceBehind index others steps).visit facts otherFollow).map
        (Visit.mapParts Clause.heading id) =
      (condition.visit facts follow).map (Visit.mapParts Clause.heading id) := by
  have keepsVerdict : ∀ body : Visit, (id body).verdict = body.verdict := fun _ => rfl
  induction steps generalizing condition with
  | nil => exact visit_replaceBehind_nil (stops condition .here) followed others
  | cons step steps inductionHypothesis =>
    cases step with
    | enter rule => cases condition <;> exact visit_eq_of_followed keepsVerdict followed
    | not =>
      cases condition with
      | leaf | reference | all | any => exact visit_eq_of_followed keepsVerdict followed
      | not child =>
        refine visit_not_eq (inductionHypothesis ?_ ?_)
        · exact fun group leads => stops group (.not leads)
        · exact fun more name leads => followed _ name (.not leads)
    | all place =>
      cases condition with
      | leaf | reference | not | any => exact visit_eq_of_followed keepsVerdict followed
      | all clauses =>
        refine visit_all_eq_of_correspond keepsVerdict fun other areOpen => ?_
        refine rel_getElem?_modify (fun _ => rfl) ?_ ?_
        · rintro clause found
          exact visit_eq_of_followed keepsVerdict fun more name leads =>
            followed _ name (.all ⟨found, areOpen⟩ leads)
        · rintro clause found rfl
          refine inductionHypothesis ?_ ?_
          · exact fun group leads => stops group (.all ⟨found, areOpen⟩ leads)
          · exact fun more name leads => followed _ name (.all ⟨found, areOpen⟩ leads)
    | any place =>
      cases condition with
      | leaf | reference | not | all => exact visit_eq_of_followed keepsVerdict followed
      | any clauses =>
        refine visit_any_eq_of_correspond keepsVerdict fun other areOpen => ?_
        refine rel_getElem?_modify (fun _ => rfl) ?_ ?_
        · rintro clause found
          exact visit_eq_of_followed keepsVerdict fun more name leads =>
            followed _ name (.any ⟨found, areOpen⟩ leads)
        · rintro clause found rfl
          refine inductionHypothesis ?_ ?_
          · exact fun group leads => stops group (.any ⟨found, areOpen⟩ leads)
          · exact fun more name leads => followed _ name (.any ⟨found, areOpen⟩ leads)

end

end Condition

/-! ## Replacement in a registry -/

/-- Other clauses behind the clause of an index, in a group of the rule of a name. -/
structure Replacement where
  rule : String
  steps : List Step
  index : Nat
  others : List Clause

/-- A rule after a replacement. -/
def Replacement.apply (replacement : Replacement) (rule : Rule) : Rule :=
  if rule.name = replacement.rule then
    { rule with
      condition :=
        rule.condition.replaceBehind replacement.index replacement.others replacement.steps }
  else rule

section

variable {replacement : Replacement} {rule : Rule}

theorem Replacement.name_apply
    (replacement : Replacement)
    (rule : Rule) :
    (replacement.apply rule).name = rule.name := by
  unfold apply
  split <;> rfl

theorem Replacement.apply_of_ne (isOther : rule.name ≠ replacement.rule) :
    replacement.apply rule = rule :=
  if_neg isOther

end

namespace Registry

/-- A registry with its rules changed, under the names that they have. -/
def revise (registry : Registry) (change : Rule → Rule)
    (keepsName : ∀ rule, (change rule).name = rule.name) : Registry where
  rules := registry.rules.map change
  index := registry.index
  indexed := by
    intro name place
    rw [registry.indexed, List.getElem?_map, Option.map_map]
    exact iff_of_eq (congrArg (fun read => registry.rules[place]?.map read = some name)
      (funext keepsName).symm)

/-- A registry has the names of another one, whose rules are changed. The rule of one name may
be any. -/
def Revises (change : Rule → Rule) (exempt : String) (registry other : Registry) : Prop :=
  ∀ name, (registry.get? name = none ∧ other.get? name = none) ∨
    ∃ rule revised, registry.get? name = some rule ∧ other.get? name = some revised ∧
      (name ≠ exempt → revised = change rule)

/-- The rules of a revised registry are those of the registry, changed. -/
theorem revises_revise
    (registry : Registry)
    {change : Rule → Rule}
    (keepsName : ∀ rule, (change rule).name = rule.name)
    (exempt : String) :
    registry.Revises change exempt (registry.revise change keepsName) := by
  intro name
  have found : (registry.revise change keepsName).get? name = (registry.get? name).map change := by
    rw [get?, get?, Option.map_bind]
    exact congrArg _ (funext fun place => List.getElem?_map)
  cases isKnown : registry.get? name with
  | none => exact .inl ⟨rfl, by rw [found, isKnown]; rfl⟩
  | some rule => exact .inr ⟨rule, change rule, rfl, by rw [found, isKnown]; rfl, fun _ => rfl⟩

/-- A replacement in a rule of the exempt name leaves the other rules as they are. -/
theorem revises_self
    (registry : Registry)
    (replacement : Replacement) :
    registry.Revises replacement.apply replacement.rule registry := by
  intro name
  cases isKnown : registry.get? name with
  | none => exact .inl ⟨rfl, rfl⟩
  | some rule =>
    obtain ⟨_, rfl⟩ := get?_eq_some_iff.1 isKnown
    exact .inr ⟨rule, rule, rfl, rfl, fun isOther => (Replacement.apply_of_ne isOther).symm⟩

end Registry

/-! ## Reports after a replacement -/

/-- The clauses that failed are those that stand at the places of the trail. -/
theorem Condition.map_failures_eq
    {facts : Facts}
    {follow : String → Except Error Visit}
    {condition : Condition}
    {visit : Visit}
    (visited : condition.visit facts follow = .ok visit) :
    visit.failures.map some = (visit.trail.map Prod.fst).map condition.clauseAt? := by
  rw [← visit.map_snd_trail, List.map_map, List.map_map]
  exact List.map_congr_left fun _ listed => (clauseAt?_of_mem_trail visited listed).symm

namespace Evaluation

/-- An evaluation is the same as another one, save that the failed clauses are those that stand
at the same places of another condition. -/
structure SameAtPlaces (condition other : Condition) (evaluation revised : Evaluation) :
    Prop where
  same : { revised with failedConditions := evaluation.failedConditions } = evaluation
  failed : ∃ places : List Place,
    evaluation.failedConditions.map some = places.map condition.clauseAt? ∧
      revised.failedConditions.map some = places.map other.clauseAt?

/-- At the same places of the same condition there are the same clauses. -/
theorem SameAtPlaces.eq
    {condition : Condition}
    {evaluation revised : Evaluation}
    (sameAtPlaces : evaluation.SameAtPlaces condition condition revised) :
    revised = evaluation := by
  obtain ⟨same, places, failed, failedToo⟩ := sameAtPlaces
  have sameFailed : revised.failedConditions = evaluation.failedConditions :=
    List.map_injective_iff.2 (fun _ _ => Option.some.inj) (failedToo.trans failed.symm)
  rw [← same, ← sameFailed]

/-- Two executions come to the same error, or to evaluations that are the same, save that the
failed clauses stand at the same places of two conditions. -/
inductive SameOutcome (condition other : Condition) :
    Except Error Evaluation → Except Error Evaluation → Prop
  | error (error : Error) : SameOutcome condition other (.error error) (.error error)
  | ok
      {evaluation revised : Evaluation}
      (same : evaluation.SameAtPlaces condition other revised) :
      SameOutcome condition other (.ok evaluation) (.ok revised)

theorem SameOutcome.eq
    {condition : Condition}
    {outcome revised : Except Error Evaluation}
    (sameOutcome : SameOutcome condition condition outcome revised) :
    revised = outcome := by
  cases sameOutcome with
  | error => rfl
  | ok same => rw [same.eq]

/-- Visits with the same outline come to the same report, with the failed clauses at the same
places. -/
theorem sameAtPlaces_of_visit
    {rule : Rule}
    {replacement : Replacement}
    {facts : Facts}
    {follow otherFollow : String → Except Error Visit}
    {visit other : Visit}
    (visited : rule.condition.visit facts follow = .ok visit)
    (visitedToo : (replacement.apply rule).condition.visit facts otherFollow = .ok other)
    (sameOutline : other.mapParts Clause.heading id = visit.mapParts Clause.heading id)
    (isTraced : Bool) :
    (Evaluation.ofVisit rule isTraced visit).SameAtPlaces rule.condition
      (replacement.apply rule).condition
      (Evaluation.ofVisit (replacement.apply rule) isTraced other) := by
  have keepsVerdict : ∀ body : Visit, (id body).verdict = body.verdict := fun _ => rfl
  have keepsEvent : ∀ clause : Clause, clause.heading.event = clause.event := fun _ => rfl
  constructor
  case same =>
    have sameVerdict : other.verdict = visit.verdict :=
      Visit.eq_of_mapParts_eq (Visit.verdict_mapParts keepsVerdict) sameOutline
    have sameOverrides : other.overrides = visit.overrides :=
      Visit.eq_of_mapParts_eq (Visit.overrides_mapParts keepsVerdict keepsEvent) sameOutline
    have sameAsked : other.asked = visit.asked :=
      Visit.eq_of_mapParts_eq Visit.asked_mapParts sameOutline
    have sameTrace : other.trace rule.name = visit.trace rule.name :=
      Visit.eq_of_mapParts_eq (Visit.trace_mapParts rule.name) sameOutline
    have sameName := replacement.name_apply rule
    have sameEvents : (replacement.apply rule).event = rule.event ∧
        (replacement.apply rule).failureEvent = rule.failureEvent := by
      unfold Replacement.apply
      split <;> exact ⟨rfl, rfl⟩
    simp [ofVisit, Rule.firedEvent, sameName, sameEvents, sameVerdict, sameOverrides, sameAsked,
      sameTrace]
  case failed =>
    have keepsPlaces : ∀ visit : Visit,
        (visit.mapParts Clause.heading id).trail.map Prod.fst = visit.trail.map Prod.fst := by
      intro visit
      rw [Visit.trail_mapParts keepsVerdict, List.map_map]
      rfl
    have samePlaces : other.trail.map Prod.fst = visit.trail.map Prod.fst := by
      rw [← keepsPlaces other, sameOutline, keepsPlaces]
    refine ⟨visit.trail.map Prod.fst, Condition.map_failures_eq visited, ?_⟩
    rw [← samePlaces]
    exact Condition.map_failures_eq visitedToo

end Evaluation

namespace Executor

variable {executor : Executor} {executed rule target : Rule} {path targetPath : List Step}
  {stack targetStack : List String} {other : Registry} {replacement : Replacement}

/-- A rule that is entered is visited with the same outline after a replacement in a rule, if
no visit to the group passes the index. -/
theorem visitFrom_apply
    (isTarget : executor.Enters executed targetPath targetStack target)
    (named : replacement.rule = target.name)
    (stops : ∀ path stack group,
      executor.Visits executed path stack target replacement.steps group →
        group.StopsBy (executor.verdictIn (stack ++ [target.name])) replacement.index)
    (revised : executor.registry.Revises replacement.apply executed.name other)
    (entered : executor.Enters executed path stack rule) :
    ({ executor with registry := other }.visitFrom stack (replacement.apply rule)).map
        (Visit.mapParts Clause.heading id) =
      (executor.visitFrom stack rule).map (Visit.mapParts Clause.heading id) := by
  induction stack, rule using visitFrom.induct executor generalizing path with
  | case1 stack rule isKnown =>
    rw [visitFrom_congr_of_closed (replacement.name_apply rule) (.inl isKnown)]
  | case2 stack rule isNew full =>
    rw [visitFrom_congr_of_closed (replacement.name_apply rule) (.inr full)]
  | case3 stack rule isNew room inductionHypothesis =>
    have followed : ∀ steps name,
        rule.condition.LeadsTo (executor.verdictIn (stack ++ [rule.name])) steps
          (.reference name) →
        (other.follow ({ executor with registry := other }.visitFrom (stack ++ [rule.name]))
            name).map (Visit.mapParts Clause.heading id) =
          (executor.registry.follow (executor.visitFrom (stack ++ [rule.name])) name).map
            (Visit.mapParts Clause.heading id) := by
      intro steps name leads
      rcases revised name with ⟨unknown, unknownToo⟩ | ⟨next, another, found, foundToo, same⟩
      · rw [Registry.follow, Registry.follow, unknown, unknownToo]
      · rw [Registry.follow_of_get? found, Registry.follow_of_get? foundToo]
        obtain ⟨_, rfl⟩ := Registry.get?_eq_some_iff.1 found
        obtain ⟨_, sameName⟩ := Registry.get?_eq_some_iff.1 foundToo
        by_cases isOpen : next.name ∈ stack ++ [rule.name] ∨
            executor.maxDepth ≤ (stack ++ [rule.name]).length
        · rw [visitFrom_congr_of_closed sameName isOpen]
        · obtain ⟨isNext, nextRoom⟩ := not_or.1 isOpen
          obtain rfl := same fun isExecuted => isNext (isExecuted ▸ entered.mem_stack)
          exact inductionHypothesis next (entered.next leads found isNext nextRoom)
    have isNewToo : (replacement.apply rule).name ∉ stack := by rwa [replacement.name_apply]
    have otherRoom : ¬{ executor with registry := other }.maxDepth ≤ stack.length := room
    rw [visitFrom_of_room isNew room, visitFrom_of_room isNewToo otherRoom,
      replacement.name_apply]
    by_cases isChanged : rule.name = replacement.rule
    · obtain rfl := entered.rule_eq isTarget (isChanged.trans named)
      rw [Replacement.apply, if_pos isChanged]
      exact Condition.visit_replaceBehind (fun group leads => stops _ _ group ⟨entered, leads⟩)
        followed replacement.others
    · rw [replacement.apply_of_ne isChanged]
      exact Condition.visit_eq_of_followed (fun _ => rfl) followed

/-- A clause that settles its group settles it in every visit that gets there. -/
theorem stopsBy_of_settledAt
    {otherPath steps : List Step}
    {otherStack : List String}
    {group otherGroup : Condition}
    {index : Nat}
    (visited : executor.Visits executed path stack target steps group)
    (settled : group.SettledAt (executor.verdictIn (stack ++ [target.name])) index)
    (visitedToo : executor.Visits executed otherPath otherStack target steps otherGroup) :
    otherGroup.StopsBy (executor.verdictIn (otherStack ++ [target.name])) index := by
  obtain rfl := visited.leads.part_eq visitedToo.leads
  obtain ⟨clause, goesTo, settles⟩ := settled
  have isTaken : (group.clauses.take (index + 1))[index]? = some clause := by
    rw [List.getElem?_take_of_lt (Nat.lt_succ_self index), goesTo.isClause]
  refine ⟨clause, List.mem_of_getElem? isTaken, fun isOpen => ?_⟩
  exact Bool.eq_not_self _ |>.1 (verdict_eq_of_verdictIn settles isOpen)

/-- What stands behind the clause that decides a group has no influence. A group that is visited
in the executed rule or in a rule that is entered may have any other clauses there, in this rule
of the registry and in the executed one. The execution comes to the same error or to the same
evaluation, with the failed clauses as they stand after the replacement. If the group is not in
the executed rule itself, there is no difference at all.

The registry may hold any rule of the name of the executed one, as such a rule is not entered.
A clause that decides the group by failing must not be passed in another visit to the group. -/
theorem execute_of_replacement
    {group : Condition}
    (visited : executor.Visits executed path stack target replacement.steps group)
    (decided : group.SettledAt (executor.verdictIn (stack ++ [target.name])) replacement.index ∨
      group.FailsAt (executor.verdictIn (stack ++ [target.name])) replacement.index ∧
        ∀ otherPath otherStack,
          executor.Visits executed otherPath otherStack target replacement.steps group →
            group.StopsBy (executor.verdictIn (otherStack ++ [target.name])) replacement.index)
    (named : replacement.rule = target.name)
    (revised : executor.registry.Revises replacement.apply executed.name other) :
    Evaluation.SameOutcome executed.condition (replacement.apply executed).condition
        (executor.execute executed)
        ({ executor with registry := other }.execute (replacement.apply executed)) ∧
      (target.name ≠ executed.name →
        { executor with registry := other }.execute executed = executor.execute executed) := by
  have stops : ∀ otherPath otherStack otherGroup,
      executor.Visits executed otherPath otherStack target replacement.steps otherGroup →
        otherGroup.StopsBy (executor.verdictIn (otherStack ++ [target.name]))
          replacement.index := by
    intro otherPath otherStack otherGroup visitedToo
    rcases decided with settled | ⟨_, stops⟩
    · exact stopsBy_of_settledAt visited settled visitedToo
    · obtain rfl := visited.leads.part_eq visitedToo.leads
      exact stops otherPath otherStack visitedToo
  have room := visited.entered.room
  have otherRoom : ¬{ executor with registry := other }.maxDepth ≤ 0 := room
  have sameOutline : ({ executor with registry := other }.visit (replacement.apply executed)).map
      (Visit.mapParts Clause.heading id) =
        (executor.visit executed).map (Visit.mapParts Clause.heading id) :=
    visitFrom_apply visited.entered named stops revised (.start room)
  have sameOutcome : Evaluation.SameOutcome executed.condition
      (replacement.apply executed).condition (executor.execute executed)
      ({ executor with registry := other }.execute (replacement.apply executed)) := by
    rw [execute_eq_visit, execute_eq_visit]
    rcases cases_of_map_eq sameOutline with ⟨error, failed, failedToo⟩ | succeed
    · rw [failed, failedToo]
      exact .error error
    · obtain ⟨visit, revisedVisit, isVisit, isVisitToo, sameVisit⟩ := succeed
      rw [isVisit, isVisitToo]
      rw [visit_of_room room] at isVisit
      rw [visit_of_room otherRoom] at isVisitToo
      exact .ok (Evaluation.sameAtPlaces_of_visit isVisit isVisitToo sameVisit _)
  refine ⟨sameOutcome, fun isOther => ?_⟩
  rw [replacement.apply_of_ne (named ▸ isOther.symm)] at sameOutcome
  exact sameOutcome.eq

/-! ### A group of a rule that is asked -/

/-- A group that is decided by its second clause. The operator of the third one is not known. -/
def choice : Condition :=
  .any [
    .plain (.leaf { fact := "absent", operator := "equal", value := .boolean true }),
    ⟨none, some { type := "chosen" },
      .leaf { fact := "absent", operator := "equal", value := .null }⟩,
    .plain (.leaf { fact := "absent", operator := "resembles", value := .null })]

/-- A rule with this group. -/
def choosing : Rule where
  name := "choosing"
  event := {}
  failureEvent := {}
  condition := .all [.plain choice]

/-- A rule that asks it. -/
def choosingNot : Rule where
  name := "choosingNot"
  event := {}
  failureEvent := {}
  condition := .not (.reference "choosing")

/-- An executor with the rule that is asked. -/
def withChoosing : Executor where
  registry := (Registry.empty.registerAll [choosing]).1
  facts := .empty

/-- In place of the third clause there are references to the asking rule and to no rule, and a
clause with an event. -/
def choosingOtherwise : Replacement where
  rule := "choosing"
  steps := [.all 0]
  index := 1
  others := [.plain (.reference "choosingNot"), .plain (.reference "unknown"),
    ⟨none, some { type := "other" }, .all []⟩]

theorem settledAt_choice (stack : List String) :
    choice.SettledAt (withChoosing.verdictIn stack) 1 := by
  refine ⟨_, ⟨rfl, List.forall_mem_singleton.2 ?first⟩, ?second⟩
  case first => rfl
  case second => rfl

/-- Both rules come to the same whatever stands behind the second clause. -/
theorem execute_choosing :
    Evaluation.SameOutcome choosing.condition (choosingOtherwise.apply choosing).condition
      (withChoosing.execute choosing) (withChoosing.execute (choosingOtherwise.apply choosing)) ∧
    { withChoosing with
      registry := withChoosing.registry.revise choosingOtherwise.apply
        choosingOtherwise.name_apply }.execute choosingNot = withChoosing.execute choosingNot ∧
    (withChoosing.execute choosingNot).map Evaluation.verdict = .ok false := by
  have room : ¬withChoosing.maxDepth ≤ 0 := by decide
  have visitedItself : withChoosing.Visits choosing [] [] choosing choosingOtherwise.steps
      choice :=
    ⟨.start room, .all ⟨rfl, nofun⟩ .here⟩
  have entered : withChoosing.Enters choosingNot _ _ choosing :=
    .next (.start room) (.not .here) rfl (by decide) (by decide)
  have visited : withChoosing.Visits choosingNot [.not, .enter "choosing"] ["choosingNot"]
      choosing choosingOtherwise.steps choice :=
    ⟨entered, .all ⟨rfl, nofun⟩ .here⟩
  have unrevised : withChoosing.registry.Revises choosingOtherwise.apply choosing.name
      withChoosing.registry :=
    withChoosing.registry.revises_self choosingOtherwise
  have revised :=
    withChoosing.registry.revises_revise choosingOtherwise.name_apply choosingNot.name
  have itself := execute_of_replacement visitedItself (.inl (settledAt_choice _)) rfl unrevised
  have asked := execute_of_replacement visited (.inl (settledAt_choice _)) rfl revised
  exact ⟨itself.1, asked.2 (by decide), rfl⟩

/-! ### A group that is passed before it fails -/

/-- A rule at the bottom of a chain of references. -/
def bottom : Rule where
  name := "bottom"
  event := {}
  failureEvent := {}
  condition := .leaf { fact := "absent", operator := "equal", value := .null }

/-- A rule with a group that asks the bottom one. -/
def middle : Rule where
  name := "middle"
  event := {}
  failureEvent := {}
  condition := .all [
    .plain (.reference "bottom"),
    .plain (.leaf { fact := "absent", operator := "equal", value := .null })]

/-- A rule that makes the chain longer. -/
def detour : Rule where
  name := "detour"
  event := {}
  failureEvent := {}
  condition := .reference "middle"

/-- A rule that gets to the middle one twice, on chains of different length. -/
def twice : Rule where
  name := "twice"
  event := {}
  failureEvent := {}
  condition := .all [.plain (.reference "middle"), .plain (.reference "detour")]

/-- An executor for which the longer chain is too deep. -/
def shallow : Executor where
  registry := (Registry.empty.registerAll [bottom, middle, detour]).1
  facts := .empty
  maxDepth := 3

/-- In place of the last clause of the middle rule there is a reference to no rule. -/
def middleToUnknown : Replacement where
  rule := "middle"
  steps := []
  index := 0
  others := [.plain (.reference "unknown")]

/-- A clause that decides a group by failing may have been passed in an earlier visit to the
group, and then the clauses behind it do matter. -/
theorem not_forall_execute_of_replacement :
    ¬∀ (executor : Executor) (executed target : Rule) (path : List Step) (stack : List String)
      (group : Condition) (replacement : Replacement) (other : Registry),
      executor.Visits executed path stack target replacement.steps group →
      (group.SettledAt (executor.verdictIn (stack ++ [target.name])) replacement.index ∨
        group.FailsAt (executor.verdictIn (stack ++ [target.name])) replacement.index) →
      replacement.rule = target.name →
      executor.registry.Revises replacement.apply executed.name other →
      Evaluation.SameOutcome executed.condition (replacement.apply executed).condition
        (executor.execute executed)
        ({ executor with registry := other }.execute (replacement.apply executed)) := by
  intro claimed
  have room : ¬shallow.maxDepth ≤ 0 := by decide
  have passed : shallow.verdictIn ["twice"] (.plain (.reference "middle")) = .ok true := by
    have alone := congrFun (verdictOf_eq_clauseVerdict room twice) (.plain (.reference "middle"))
    exact alone.symm
  have leads : twice.condition.LeadsTo (shallow.verdictIn ["twice"]) [.all 1]
      (.reference "detour") :=
    .all ⟨rfl, List.forall_mem_singleton.2 passed⟩ .here
  have enteredDetour : shallow.Enters twice _ _ detour :=
    .next (.start room) leads rfl (by decide) (by decide)
  have entered : shallow.Enters twice _ _ middle :=
    .next enteredDetour .here rfl (by decide) (by decide)
  have fails : middle.condition.FailsAt (shallow.verdictIn ["twice", "detour", "middle"]) 0 := by
    refine ⟨_, .depthExceeded 4 3, ⟨rfl, nofun⟩, ?_⟩
    have exceeded : shallow.visitFrom ["twice", "detour", "middle"] bottom =
        .error (.depthExceeded 4 3) :=
      visitFrom_of_full (by decide) (by decide)
    have found : shallow.registry.get? "bottom" = some bottom := rfl
    have followed := (Registry.follow_of_get? found).trans exceeded
    exact congrArg (fun outcome => (outcome.map (Visit.reference "bottom")).map Visit.verdict)
      followed
  have revised := shallow.registry.revises_revise middleToUnknown.name_apply "twice"
  have exceeded : shallow.execute twice = .error (.depthExceeded 4 3) := rfl
  have unknown : { shallow with
      registry := shallow.registry.revise middleToUnknown.apply
        middleToUnknown.name_apply }.execute (middleToUnknown.apply twice) =
          .error (.unknownRule "unknown") := rfl
  have same := claimed shallow twice middle _ _ _ middleToUnknown _ ⟨entered, .here⟩ (.inr fails)
    rfl revised
  rw [exceeded, unknown] at same
  cases same

end Executor
end Verdict
