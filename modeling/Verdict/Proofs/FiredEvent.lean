import Mathlib.Data.List.Nodup
import Verdict.Proofs.Execution

/-!
# Fired events

A rule that holds gives out the event of a branch that holds, or else its own. A
group puts the event of a clause in place as soon as the group holds, and nothing
takes the event back when a clause or group around it fails afterwards.

So the event that is given out is one of a branch that holds unless it was the last
one that was put in place and its branch failed later on. The rule at the end of
this module shows that this does happen.
-/

namespace Verdict

/-- An event that a visited clause carries. It stands if the clause holds and so do
all clauses and groups around it. -/
structure Placement where
  event : Event
  stands : Bool

namespace Placement

/-- An event seen from outside of a clause or group that holds or not. -/
def within (holds : Bool) (placement : Placement) : Placement :=
  { placement with stands := holds && placement.stands }

end Placement

/-- The event that a visited clause carries, as seen inside its group. -/
def ClauseVisit.carried (clause : ClauseVisit) : List Placement :=
  clause.clause.event.toList.map (⟨·, clause.visit.verdict⟩)

namespace Visit

mutual

/-- The events that clauses carry, wherever in the visit they are. A negation is
neither a clause nor a group, so they stand whether or not it holds. -/
def carried : Visit → List Placement
  | .leaf _ _ => []
  | .reference _ _ => []
  | .not child => child.carried
  | .all clauses => (clauseCarried clauses).map (.within (allHold clauses))
  | .any clauses => (clauseCarried clauses).map (.within (anyHolds clauses))

/-- The events that clauses of a group and clauses inside them carry. -/
def clauseCarried : List ClauseVisit → List Placement
  | [] => []
  | ⟨clause, visit⟩ :: rest =>
    ClauseVisit.carried ⟨clause, visit⟩ ++ visit.carried.map (.within visit.verdict) ++
      clauseCarried rest

end

/-- The event that a group puts in place if it holds: that of its last visited clause. -/
def lastCarried (clauses : List ClauseVisit) : List Placement :=
  clauses.getLast?.toList.flatMap ClauseVisit.carried

mutual

/-- The events that groups put in place, in order. -/
def placed : Visit → List Placement
  | .leaf _ _ => []
  | .reference _ _ => []
  | .not child => child.placed
  | .all clauses =>
    (clausePlaced clauses ++ (if allHold clauses then lastCarried clauses else [])).map
      (.within (allHold clauses))
  | .any clauses =>
    (clausePlaced clauses ++ (if anyHolds clauses then lastCarried clauses else [])).map
      (.within (anyHolds clauses))

/-- The events that groups inside clauses put in place, in order. -/
def clausePlaced : List ClauseVisit → List Placement
  | [] => []
  | ⟨_, visit⟩ :: rest => visit.placed.map (.within visit.verdict) ++ clausePlaced rest

end

/-- The last event that was put in place does not stand: its branch failed afterwards,
and no group put another event in place. -/
def leaks (visit : Visit) : Bool :=
  visit.placed.getLast?.any fun placement => !placement.stands

/-! ## Events that are put in place -/

theorem lastEvent_eq
    (before : Option Event)
    (clauses : List ClauseVisit) :
    lastEvent before clauses = (clauses.getLast?.map (·.clause.event)).getD before := by
  induction clauses generalizing before with
  | nil => rfl
  | cons clause rest inductionHypothesis =>
    obtain ⟨clause, visit⟩ := clause
    rw [lastEvent, inductionHypothesis, List.getLast?_cons]
    cases rest.getLast? <;> rfl

theorem map_event_lastCarried (clauses : List ClauseVisit) :
    (lastCarried clauses).map Placement.event = (lastEvent none clauses).toList := by
  rw [lastEvent_eq, lastCarried]
  cases clauses.getLast? with
  | none => rfl
  | some clause => simp [ClauseVisit.carried, Function.comp_def]

theorem map_event_within
    (holds : Bool)
    (placements : List Placement) :
    (placements.map (.within holds)).map Placement.event = placements.map Placement.event := by
  rw [List.map_map]
  exact List.map_congr_left fun _ _ => rfl

/-- The events that clauses put in place are their overrides, if this is so inside each. -/
theorem map_event_clausePlaced
    (clauses : List ClauseVisit)
    (inside : ∀ clause ∈ clauses,
      clause.visit.placed.map Placement.event = clause.visit.overrides) :
    (clausePlaced clauses).map Placement.event = clauseOverrides clauses := by
  induction clauses with
  | nil => rfl
  | cons clause rest inductionHypothesis =>
    obtain ⟨insideFirst, insideRest⟩ := List.forall_mem_cons.1 inside
    obtain ⟨clause, visit⟩ := clause
    rw [clausePlaced, clauseOverrides, List.map_append, map_event_within, insideFirst,
      inductionHypothesis insideRest]

/-- The events that are put in place are the overrides of the visit. -/
theorem map_event_placed (visit : Visit) : visit.placed.map Placement.event = visit.overrides := by
  induction visit with
  | leaf comparison matched => rfl
  | reference rule body inductionHypothesis => rfl
  | not child inductionHypothesis => exact inductionHypothesis
  | all clauses inductionHypothesis | any clauses inductionHypothesis =>
    rw [placed, overrides, map_event_within, List.map_append,
      map_event_clausePlaced clauses inductionHypothesis, ← map_event_lastCarried]
    split <;> rfl

theorem carried_subset
    {clauses : List ClauseVisit}
    {clause : ClauseVisit}
    (member : clause ∈ clauses) :
    clause.carried ⊆ clauseCarried clauses := by
  induction clauses with
  | nil => exact nomatch member
  | cons first rest inductionHypothesis =>
    obtain ⟨firstClause, visit⟩ := first
    rw [clauseCarried]
    rcases List.mem_cons.1 member with rfl | inRest
    · exact fun _ isCarried => List.mem_append_left _ (List.mem_append_left _ isCarried)
    · exact fun _ isCarried => List.mem_append_right _ (inductionHypothesis inRest isCarried)

theorem lastCarried_subset (clauses : List ClauseVisit) :
    lastCarried clauses ⊆ clauseCarried clauses := by
  intro placement member
  obtain ⟨clause, isLast, isCarried⟩ := List.mem_flatMap.1 member
  exact carried_subset (List.mem_of_getLast? (Option.mem_toList.1 isLast)) isCarried

/-- Clauses put in place what clauses carry, if this is so inside each. -/
theorem clausePlaced_subset
    (clauses : List ClauseVisit)
    (inside : ∀ clause ∈ clauses, clause.visit.placed ⊆ clause.visit.carried) :
    clausePlaced clauses ⊆ clauseCarried clauses := by
  induction clauses with
  | nil => exact List.Subset.refl _
  | cons clause rest inductionHypothesis =>
    obtain ⟨insideFirst, insideRest⟩ := List.forall_mem_cons.1 inside
    obtain ⟨clause, visit⟩ := clause
    rw [clausePlaced, clauseCarried]
    refine List.append_subset.2 ⟨fun _ isPlaced => ?_, fun _ isPlaced => ?_⟩
    · exact List.mem_append_left _ (List.mem_append_right _ (List.map_subset _ insideFirst isPlaced))
    · exact List.mem_append_right _ (inductionHypothesis insideRest isPlaced)

/-- Only clauses give events, and each event that is put in place stands as its
clause does. -/
theorem placed_subset_carried (visit : Visit) : visit.placed ⊆ visit.carried := by
  induction visit with
  | leaf comparison matched => exact List.Subset.refl _
  | reference rule body inductionHypothesis => exact List.Subset.refl _
  | not child inductionHypothesis => exact inductionHypothesis
  | all clauses inductionHypothesis | any clauses inductionHypothesis =>
    rw [placed, carried]
    refine List.map_subset _ (List.append_subset.2 ⟨?inner, ?last⟩)
    case inner => exact clausePlaced_subset clauses inductionHypothesis
    case last =>
      split
      · exact lastCarried_subset clauses
      · exact List.nil_subset _

end Visit

/-! ## The event of a rule -/

namespace Rule

variable {rule : Rule} {visit : Visit}

/-- A rule that holds gives out the last event that was put in place, or its own. -/
theorem firedEvent_of_holds
    (holds : visit.verdict = true) :
    rule.firedEvent visit = (visit.placed.getLast?.map Placement.event).getD rule.event := by
  rw [firedEvent, if_pos holds, ← Visit.map_event_placed, List.getLast?_map]

end Rule

namespace Executor

/-- The event of an execution whose rule holds: the last one that was put in place, or
that of the rule. Unless an event leaks, it is that of the rule or of a clause that
holds within clauses and groups that hold. An event that leaks is that of a clause
inside one that failed, and if no two clauses carry the same event it is no other. -/
theorem event_of_execute
    {executor : Executor}
    {rule : Rule}
    {evaluation : Evaluation}
    (executed : executor.execute rule = .ok evaluation)
    (holds : evaluation.verdict = true) :
    ∃ visit, executor.visit rule = .ok visit ∧
      evaluation.event = (visit.placed.getLast?.map Placement.event).getD rule.event ∧
      (visit.leaks = false →
        evaluation.event = rule.event ∨ ⟨evaluation.event, true⟩ ∈ visit.carried) ∧
      (visit.leaks = true → ⟨evaluation.event, false⟩ ∈ visit.carried) ∧
      (visit.leaks = true → (rule.event :: visit.carried.map Placement.event).Nodup →
        ¬(evaluation.event = rule.event ∨ ⟨evaluation.event, true⟩ ∈ visit.carried)) := by
  rw [execute_eq_visit] at executed
  obtain ⟨visit, visited, rfl⟩ := exists_of_map executed
  have fired : (Evaluation.ofVisit rule executor.isTraced visit).event =
      (visit.placed.getLast?.map Placement.event).getD rule.event :=
    Rule.firedEvent_of_holds holds
  refine ⟨visit, visited, fired, ?_⟩
  rw [fired, Visit.leaks]
  cases last : visit.placed.getLast? with
  | none => exact ⟨fun _ => .inl rfl, nofun, nofun⟩
  | some placement =>
    have isCarried : placement ∈ visit.carried :=
      visit.placed_subset_carried (List.mem_of_getLast? last)
    obtain ⟨event, stands⟩ := placement
    cases stands with
    | true => exact ⟨fun _ => .inr isCarried, nofun, nofun⟩
    | false =>
      refine ⟨nofun, fun _ => isCarried, fun _ distinct => ?_⟩
      obtain ⟨notOwn, distinctCarried⟩ := List.nodup_cons.1 distinct
      rintro (isOwn | alsoStands)
      · exact notOwn (isOwn ▸ List.mem_map_of_mem isCarried)
      · have same := List.inj_on_of_nodup_map distinctCarried isCarried alsoStands rfl
        exact nomatch congrArg Placement.stands same

/-- An executor without rules and facts. -/
def bare : Executor where
  registry := .empty
  facts := .empty

/-- A rule whose first branch fails after a group in it has put an event in place, and
whose second branch holds and carries no event. -/
def leaky : Rule where
  name := "leaky"
  event := { type := "own" }
  failureEvent := { type := "failure" }
  condition :=
    .any
      [⟨none, none, .all
        [⟨none, none, .any
          [⟨none, some { type := "inner" },
            .leaf { fact := "absent", operator := "equal", value := .null }⟩]⟩,
        ⟨none, none, .leaf { fact := "absent", operator := "equal", value := .boolean true }⟩]⟩,
      ⟨none, none, .leaf { fact := "absent", operator := "equal", value := .null }⟩]

/-- The execution of the leaky rule: a single event is put in place, in the branch that
fails, and the rule gives it out. -/
theorem execute_leaky :
    ∃ evaluation visit, bare.execute leaky = .ok evaluation ∧ bare.visit leaky = .ok visit ∧
      evaluation.verdict = true ∧ evaluation.event = { type := "inner" } ∧
      visit.leaks = true ∧ visit.carried = [⟨{ type := "inner" }, false⟩] := by
  have shown : (bare.visit leaky).map
      (fun visit => (visit.verdict, leaky.firedEvent visit, visit.leaks, visit.carried)) =
      .ok (true, { type := "inner" }, true, [⟨{ type := "inner" }, false⟩]) := by
    rw [visit, visitFrom, if_neg (by decide), if_neg (by decide)]
    rfl
  obtain ⟨visit, visited, same⟩ := exists_of_map shown
  obtain ⟨holds, rest⟩ := Prod.mk.inj same
  obtain ⟨fired, rest⟩ := Prod.mk.inj rest
  obtain ⟨leaks, isCarried⟩ := Prod.mk.inj rest
  have executed : bare.execute leaky = .ok (.ofVisit leaky false visit) := by
    rw [execute_eq_visit, visited]
    rfl
  exact ⟨_, visit, executed, visited, holds, fired, leaks, isCarried⟩

/-- The rule whose first branch fails gives out the event of that branch. -/
theorem event_of_execute_leaky :
    ∃ evaluation visit, bare.execute leaky = .ok evaluation ∧ evaluation.verdict = true ∧
      bare.visit leaky = .ok visit ∧ visit.leaks = true ∧
      ⟨evaluation.event, false⟩ ∈ visit.carried := by
  obtain ⟨evaluation, visit, executed, visited, holds, _, leaks, _⟩ := execute_leaky
  obtain ⟨again, visitedAgain, _, _, isLost, _⟩ := event_of_execute executed holds
  have same : visit = again := Except.ok.inj (visited.symm.trans visitedAgain)
  subst same
  exact ⟨evaluation, visit, executed, holds, visited, leaks, isLost leaks⟩

/-- The event of a rule that holds need not be its own or that of a clause that holds
within clauses and groups that hold. -/
theorem not_forall_event_stands :
    ¬∀ (executor : Executor) (rule : Rule) (evaluation : Evaluation) (visit : Visit),
      executor.execute rule = .ok evaluation →
      executor.visit rule = .ok visit →
      evaluation.verdict = true →
      evaluation.event = rule.event ∨ ⟨evaluation.event, true⟩ ∈ visit.carried := by
  intro claimed
  obtain ⟨evaluation, visit, executed, visited, holds, fired, _, isCarried⟩ := execute_leaky
  rcases claimed bare leaky evaluation visit executed visited holds with isOwn | stands
  · rw [fired] at isOwn
    exact absurd (congrArg Event.type isOwn) (by decide)
  · rw [isCarried, List.mem_singleton] at stands
    exact nomatch congrArg Placement.stands stands

end Executor

end Verdict
