import Verdict.Proofs.Descent

/-!
# Outlines of visits

Much of what a visit shows does not depend on all that is recorded in it. The verdict, the
events that are put in place and the rules that are asked are read off without looking into the
conditions of recorded clauses, and of the visit to another rule only its verdict counts, save
for the trace. An outline of a visit has these parts changed.

Two visits have the same outline if they may differ only in such parts. This module shows that
visits to two conditions have the same outline when the clauses that are reached, and the rules
that are asked at them, correspond to each other.
-/

namespace Verdict

namespace Visit

/-! ## Changes of parts -/

section

variable (onClause : Clause → Clause) (onBody : Visit → Visit)

mutual

/-- A visit with its recorded clauses changed, and then the visits to other rules. -/
def mapParts : Visit → Visit
  | .leaf comparison matched => .leaf comparison matched
  | .reference rule body => .reference rule (onBody body.mapParts)
  | .not child => .not child.mapParts
  | .all clauses => .all (mapClauseParts clauses)
  | .any clauses => .any (mapClauseParts clauses)

/-- Visited clauses with these changes. -/
def mapClauseParts : List ClauseVisit → List ClauseVisit
  | [] => []
  | ⟨clause, visit⟩ :: rest => ⟨onClause clause, visit.mapParts⟩ :: mapClauseParts rest

end

end

variable {onClause : Clause → Clause} {onBody : Visit → Visit}

theorem mapClauseParts_eq_map (clauses : List ClauseVisit) :
    mapClauseParts onClause onBody clauses =
      clauses.map fun shown => ⟨onClause shown.clause, shown.visit.mapParts onClause onBody⟩ := by
  induction clauses with
  | nil => rfl
  | cons shown rest inductionHypothesis =>
    obtain ⟨clause, visit⟩ := shown
    rw [mapClauseParts, inductionHypothesis, List.map_cons]

@[simp] theorem length_mapClauseParts (clauses : List ClauseVisit) :
    (mapClauseParts onClause onBody clauses).length = clauses.length := by
  rw [mapClauseParts_eq_map, List.length_map]

/-! ### Verdicts -/

theorem allHold_mapClauseParts
    {clauses : List ClauseVisit}
    (inside : ∀ shown ∈ clauses,
      (shown.visit.mapParts onClause onBody).verdict = shown.visit.verdict) :
    allHold (mapClauseParts onClause onBody clauses) = allHold clauses := by
  induction clauses with
  | nil => rfl
  | cons shown rest inductionHypothesis =>
    obtain ⟨insideFirst, insideRest⟩ := List.forall_mem_cons.1 inside
    obtain ⟨clause, visit⟩ := shown
    rw [mapClauseParts, allHold, allHold, insideFirst, inductionHypothesis insideRest]

theorem anyHolds_mapClauseParts
    {clauses : List ClauseVisit}
    (inside : ∀ shown ∈ clauses,
      (shown.visit.mapParts onClause onBody).verdict = shown.visit.verdict) :
    anyHolds (mapClauseParts onClause onBody clauses) = anyHolds clauses := by
  induction clauses with
  | nil => rfl
  | cons shown rest inductionHypothesis =>
    obtain ⟨insideFirst, insideRest⟩ := List.forall_mem_cons.1 inside
    obtain ⟨clause, visit⟩ := shown
    rw [mapClauseParts, anyHolds, anyHolds, insideFirst, inductionHypothesis insideRest]

/-- The changes keep verdicts if they do so in visits to other rules. -/
theorem verdict_mapParts
    (keepsVerdict : ∀ body, (onBody body).verdict = body.verdict)
    (visit : Visit) :
    (visit.mapParts onClause onBody).verdict = visit.verdict := by
  induction visit with
  | leaf comparison matched => rfl
  | reference rule body inductionHypothesis => exact (keepsVerdict _).trans inductionHypothesis
  | not child inductionHypothesis => exact congrArg (!·) inductionHypothesis
  | all clauses inductionHypothesis => exact allHold_mapClauseParts inductionHypothesis
  | any clauses inductionHypothesis => exact anyHolds_mapClauseParts inductionHypothesis

/-! ### Rules that are asked -/

theorem clauseAsked_mapClauseParts
    {clauses : List ClauseVisit}
    (inside : ∀ shown ∈ clauses, (shown.visit.mapParts onClause onBody).asked = shown.visit.asked) :
    clauseAsked (mapClauseParts onClause onBody clauses) = clauseAsked clauses := by
  induction clauses with
  | nil => rfl
  | cons shown rest inductionHypothesis =>
    obtain ⟨insideFirst, insideRest⟩ := List.forall_mem_cons.1 inside
    obtain ⟨clause, visit⟩ := shown
    rw [mapClauseParts, clauseAsked, clauseAsked, insideFirst, inductionHypothesis insideRest]

@[simp] theorem asked_mapParts (visit : Visit) :
    (visit.mapParts onClause onBody).asked = visit.asked := by
  induction visit with
  | leaf | reference => rfl
  | not child inductionHypothesis => exact inductionHypothesis
  | all clauses inductionHypothesis | any clauses inductionHypothesis =>
    exact clauseAsked_mapClauseParts inductionHypothesis

/-! ### Events that are put in place -/

theorem lastEvent_mapClauseParts
    (keepsEvent : ∀ clause, (onClause clause).event = clause.event)
    (before : Option Event)
    (clauses : List ClauseVisit) :
    lastEvent before (mapClauseParts onClause onBody clauses) = lastEvent before clauses := by
  induction clauses generalizing before with
  | nil => rfl
  | cons shown rest inductionHypothesis =>
    obtain ⟨clause, visit⟩ := shown
    rw [mapClauseParts, lastEvent, lastEvent, keepsEvent, inductionHypothesis]

theorem clauseOverrides_mapClauseParts
    {clauses : List ClauseVisit}
    (inside : ∀ shown ∈ clauses,
      (shown.visit.mapParts onClause onBody).overrides = shown.visit.overrides) :
    clauseOverrides (mapClauseParts onClause onBody clauses) = clauseOverrides clauses := by
  induction clauses with
  | nil => rfl
  | cons shown rest inductionHypothesis =>
    obtain ⟨insideFirst, insideRest⟩ := List.forall_mem_cons.1 inside
    obtain ⟨clause, visit⟩ := shown
    rw [mapClauseParts, clauseOverrides, clauseOverrides, insideFirst,
      inductionHypothesis insideRest]

theorem overrides_mapParts
    (keepsVerdict : ∀ body, (onBody body).verdict = body.verdict)
    (keepsEvent : ∀ clause, (onClause clause).event = clause.event)
    (visit : Visit) :
    (visit.mapParts onClause onBody).overrides = visit.overrides := by
  have keeps : ∀ visit, (mapParts onClause onBody visit).verdict = visit.verdict :=
    verdict_mapParts keepsVerdict
  induction visit with
  | leaf | reference => rfl
  | not child inductionHypothesis => exact inductionHypothesis
  | all clauses inductionHypothesis =>
    rw [mapParts, overrides, overrides, clauseOverrides_mapClauseParts inductionHypothesis,
      allHold_mapClauseParts fun shown _ => keeps shown.visit, lastEvent_mapClauseParts keepsEvent]
  | any clauses inductionHypothesis =>
    rw [mapParts, overrides, overrides, clauseOverrides_mapClauseParts inductionHypothesis,
      anyHolds_mapClauseParts fun shown _ => keeps shown.visit, lastEvent_mapClauseParts keepsEvent]

/-! ### Clauses that failed -/

theorem clauseTrail_mapClauseParts
    (keepsVerdict : ∀ body, (onBody body).verdict = body.verdict)
    {clauses : List ClauseVisit}
    (inside : ∀ shown ∈ clauses, (shown.visit.mapParts onClause onBody).trail =
      shown.visit.trail.map (Prod.map id onClause))
    (index : Nat) :
    clauseTrail index (mapClauseParts onClause onBody clauses) =
      (clauseTrail index clauses).map (Prod.map id onClause) := by
  induction clauses generalizing index with
  | nil => rfl
  | cons shown rest inductionHypothesis =>
    obtain ⟨insideFirst, insideRest⟩ := List.forall_mem_cons.1 inside
    obtain ⟨clause, visit⟩ := shown
    rw [mapClauseParts, clauseTrail, clauseTrail, insideFirst, inductionHypothesis insideRest,
      verdict_mapParts keepsVerdict]
    cases visit.verdict <;> simp

/-- The same places fail, and the clauses at them are changed. -/
theorem trail_mapParts
    (keepsVerdict : ∀ body, (onBody body).verdict = body.verdict)
    (visit : Visit) :
    (visit.mapParts onClause onBody).trail = visit.trail.map (Prod.map id onClause) := by
  induction visit with
  | leaf | reference => rfl
  | not child inductionHypothesis => exact inductionHypothesis
  | all clauses inductionHypothesis | any clauses inductionHypothesis =>
    exact clauseTrail_mapClauseParts keepsVerdict inductionHypothesis 0

theorem failures_mapParts
    (keepsVerdict : ∀ body, (onBody body).verdict = body.verdict)
    (visit : Visit) :
    (visit.mapParts onClause onBody).failures = visit.failures.map onClause := by
  rw [← map_snd_trail, ← map_snd_trail, trail_mapParts keepsVerdict, List.map_map, List.map_map]
  rfl

/-! ### Traces -/

theorem clauseTrace_mapClauseParts
    {clauses : List ClauseVisit}
    (inside : ∀ shown ∈ clauses, ∀ address,
      (shown.visit.mapParts onClause id).trace address = shown.visit.trace address)
    (group word : String)
    (index : Nat) :
    clauseTrace group word index (mapClauseParts onClause id clauses) =
      clauseTrace group word index clauses := by
  induction clauses generalizing index with
  | nil => rfl
  | cons shown rest inductionHypothesis =>
    obtain ⟨insideFirst, insideRest⟩ := List.forall_mem_cons.1 inside
    obtain ⟨clause, visit⟩ := shown
    rw [mapClauseParts, clauseTrace, clauseTrace, insideFirst, inductionHypothesis insideRest]

/-- A trace does not depend on the recorded clauses. -/
theorem trace_mapParts
    (address : String)
    (visit : Visit) :
    (visit.mapParts onClause id).trace address = visit.trace address := by
  have keeps : ∀ visit, (mapParts onClause id visit).verdict = visit.verdict :=
    verdict_mapParts fun _ => rfl
  induction visit generalizing address with
  | leaf comparison matched => rfl
  | reference rule body inductionHypothesis =>
    rw [mapParts, trace, trace, id, inductionHypothesis, stepText, stepText, keeps]
  | not child inductionHypothesis =>
    rw [mapParts, trace, trace, inductionHypothesis, stepText, stepText, keeps]
  | all clauses inductionHypothesis =>
    rw [mapParts, trace, trace, clauseTrace_mapClauseParts inductionHypothesis, stepText, stepText,
      allHold_mapClauseParts fun shown _ => keeps shown.visit, lastIndex, lastIndex,
      length_mapClauseParts]
  | any clauses inductionHypothesis =>
    rw [mapParts, trace, trace, clauseTrace_mapClauseParts inductionHypothesis, stepText, stepText,
      anyHolds_mapClauseParts fun shown _ => keeps shown.visit, lastIndex, lastIndex,
      length_mapClauseParts]

/-- What an outline keeps is the same for visits with the same outline. -/
theorem eq_of_mapParts_eq
    {α : Type}
    {read : Visit → α}
    {visit other : Visit}
    (keeps : ∀ visit, read (visit.mapParts onClause onBody) = read visit)
    (same : other.mapParts onClause onBody = visit.mapParts onClause onBody) :
    read other = read visit := by
  rw [← keeps other, same, keeps]

end Visit

/-! ## Visits with the same outline -/

namespace Condition

variable {onClause : Clause → Clause} {onBody : Visit → Visit} {facts : Facts}
  {follow otherFollow : String → Except Error Visit} {settling : Bool}

/-- Two clauses correspond to each other when they are recorded and visited alike, up to the
changes of an outline. -/
structure Correspond (onClause : Clause → Clause) (onBody : Visit → Visit) (facts : Facts)
    (follow otherFollow : String → Except Error Visit) (clause other : Clause) : Prop where
  sameClause : onClause other = onClause clause
  sameOutline : (other.condition.visit facts otherFollow).map (Visit.mapParts onClause onBody) =
    (clause.condition.visit facts follow).map (Visit.mapParts onClause onBody)

/-- Visits to two groups have the same outline if each clause that is reached in the first one
corresponds to the clause of the same index in the second one. -/
theorem visitUntil_eq_of_correspond
    (keepsVerdict : ∀ body, (onBody body).verdict = body.verdict)
    {clauses others : List Clause}
    (correspond : ∀ index,
      (∀ earlier ∈ clauses.take index, clauseVerdict facts follow earlier = .ok !settling) →
        Option.Rel (Correspond onClause onBody facts follow otherFollow)
          clauses[index]? others[index]?) :
    (visitUntil facts otherFollow settling others).map (Visit.mapClauseParts onClause onBody) =
      (visitUntil facts follow settling clauses).map (Visit.mapClauseParts onClause onBody) := by
  induction clauses generalizing others with
  | nil =>
    cases others with
    | nil => rfl
    | cons other rest => cases correspond 0 nofun
  | cons clause clauses inductionHypothesis =>
    cases others with
    | nil => cases correspond 0 nofun
    | cons other others =>
      obtain ⟨sameClause, sameOutline⟩ : Correspond onClause onBody facts follow otherFollow
          clause other := by
        cases correspond 0 nofun with
        | some corresponds => exact corresponds
      obtain ⟨error, failed, failedToo⟩ | ⟨visit, otherVisit, visited, visitedToo, changed⟩ :=
        cases_of_map_eq sameOutline
      · rw [visitUntil_of_error failed, visitUntil_of_error failedToo]
      · have sameVerdict : otherVisit.verdict = visit.verdict :=
          Visit.eq_of_mapParts_eq (Visit.verdict_mapParts keepsVerdict) changed
        by_cases settled : visit.verdict = settling
        · rw [visitUntil_of_settled visited settled,
            visitUntil_of_settled visitedToo (sameVerdict.trans settled)]
          simp [Except.map, Visit.mapClauseParts, sameClause, changed]
        · have isOpen : clauseVerdict facts follow clause = .ok !settling := by
            rw [clauseVerdict, visited, ← Bool.eq_not.2 settled]
            rfl
          have sameRest := @inductionHypothesis others fun index areOpen =>
            correspond (index + 1) (List.forall_mem_cons.2 ⟨isOpen, areOpen⟩)
          rw [visitUntil_of_open visited settled,
            visitUntil_of_open visitedToo (sameVerdict ▸ settled)]
          obtain ⟨error, failed, failedToo⟩ | ⟨visits, otherVisits, visited, visitedToo, same⟩ :=
            cases_of_map_eq sameRest
          · rw [failed, failedToo]
            rfl
          · rw [visited, visitedToo]
            simp [Except.map, Visit.mapClauseParts, sameClause, changed, same]

theorem visit_all_eq_of_correspond
    (keepsVerdict : ∀ body, (onBody body).verdict = body.verdict)
    {clauses others : List Clause}
    (correspond : ∀ index,
      (∀ earlier ∈ clauses.take index, clauseVerdict facts follow earlier = .ok true) →
        Option.Rel (Correspond onClause onBody facts follow otherFollow)
          clauses[index]? others[index]?) :
    ((Condition.all others).visit facts otherFollow).map (Visit.mapParts onClause onBody) =
      ((Condition.all clauses).visit facts follow).map (Visit.mapParts onClause onBody) := by
  rw [visit, visit, map_map, map_map]
  exact map_eq_map_of_factors (fun _ _ changed => congrArg Visit.all changed)
    (visitUntil_eq_of_correspond keepsVerdict correspond)

theorem visit_any_eq_of_correspond
    (keepsVerdict : ∀ body, (onBody body).verdict = body.verdict)
    {clauses others : List Clause}
    (correspond : ∀ index,
      (∀ earlier ∈ clauses.take index, clauseVerdict facts follow earlier = .ok false) →
        Option.Rel (Correspond onClause onBody facts follow otherFollow)
          clauses[index]? others[index]?) :
    ((Condition.any others).visit facts otherFollow).map (Visit.mapParts onClause onBody) =
      ((Condition.any clauses).visit facts follow).map (Visit.mapParts onClause onBody) := by
  rw [visit, visit, map_map, map_map]
  exact map_eq_map_of_factors (fun _ _ changed => congrArg Visit.any changed)
    (visitUntil_eq_of_correspond keepsVerdict correspond)

theorem visit_not_eq
    {child other : Condition}
    (same : (other.visit facts otherFollow).map (Visit.mapParts onClause onBody) =
      (child.visit facts follow).map (Visit.mapParts onClause onBody)) :
    ((Condition.not other).visit facts otherFollow).map (Visit.mapParts onClause onBody) =
      ((Condition.not child).visit facts follow).map (Visit.mapParts onClause onBody) := by
  rw [visit, visit, map_map, map_map]
  exact map_eq_map_of_factors (fun _ _ changed => congrArg Visit.not changed) same

/-- A clause that is reached corresponds to itself if the rest of the descent is alike. -/
theorem rel_getElem?
    {clauses : List Clause}
    {index : Nat}
    (sameOutline : ∀ clause, clauses[index]? = some clause →
      (clause.condition.visit facts otherFollow).map (Visit.mapParts onClause onBody) =
        (clause.condition.visit facts follow).map (Visit.mapParts onClause onBody)) :
    Option.Rel (Correspond onClause onBody facts follow otherFollow)
      clauses[index]? clauses[index]? := by
  cases found : clauses[index]? with
  | none => exact .none
  | some clause => exact .some ⟨rfl, sameOutline clause found⟩

/-- Visits to a condition have the same outline if the visits to each rule that is asked do. -/
theorem visit_eq_of_followed
    (keepsVerdict : ∀ body, (onBody body).verdict = body.verdict)
    {condition : Condition}
    (followed : ∀ steps name,
      condition.LeadsTo (clauseVerdict facts follow) steps (.reference name) →
        (otherFollow name).map (fun body => onBody (body.mapParts onClause onBody)) =
          (follow name).map fun body => onBody (body.mapParts onClause onBody)) :
    (condition.visit facts otherFollow).map (Visit.mapParts onClause onBody) =
      (condition.visit facts follow).map (Visit.mapParts onClause onBody) := by
  induction condition with
  | leaf comparison => rfl
  | reference name =>
    rw [visit, visit, map_map, map_map]
    exact map_eq_map_of_factors (fun _ _ changed => congrArg (Visit.reference name) changed)
      (followed [] name .here)
  | not child inductionHypothesis =>
    exact visit_not_eq (inductionHypothesis fun steps name leads => followed _ name (.not leads))
  | all clauses inductionHypothesis =>
    refine visit_all_eq_of_correspond keepsVerdict fun index areOpen => rel_getElem? ?_
    intro clause found
    refine inductionHypothesis clause (List.mem_of_getElem? found) fun steps name leads => ?_
    exact followed _ name (.all ⟨found, areOpen⟩ leads)
  | any clauses inductionHypothesis =>
    refine visit_any_eq_of_correspond keepsVerdict fun index areOpen => rel_getElem? ?_
    intro clause found
    refine inductionHypothesis clause (List.mem_of_getElem? found) fun steps name leads => ?_
    exact followed _ name (.any ⟨found, areOpen⟩ leads)

end Condition

namespace Executor

/-- A rule that cannot be entered fails for that, whatever it is apart from its name. -/
theorem visitFrom_congr_of_closed
    {executor : Executor}
    {other : Registry}
    {stack : List String}
    {rule another : Rule}
    (sameName : another.name = rule.name)
    (isClosed : rule.name ∈ stack ∨ executor.maxDepth ≤ stack.length) :
    { executor with registry := other }.visitFrom stack another = executor.visitFrom stack rule := by
  by_cases isKnown : rule.name ∈ stack
  · rw [visitFrom_of_known isKnown, visitFrom_of_known (sameName ▸ isKnown), sameName]
  · have full := isClosed.resolve_left isKnown
    have otherFull : { executor with registry := other }.maxDepth ≤ stack.length := full
    rw [visitFrom_of_full isKnown full, visitFrom_of_full (sameName ▸ isKnown) otherFull]

end Executor

/-! ## Reports -/

/-- An evaluation without its trace. -/
def Evaluation.withoutTrace (evaluation : Evaluation) : Evaluation :=
  { evaluation with trace := [] }

end Verdict
