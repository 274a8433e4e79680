import Verdict.Proofs.DecisionList

/-!
# The trail of clauses that fail

An evaluation reports the clauses that failed. This module shows that these are exactly the
clauses of the rule itself that were visited and came to false, each one as often as that
happened, and in the order in which their evaluation was completed.

Equal clauses may stand at several places of a condition, so the places are what is counted.
Which places are visited is told by the verdicts of clauses that are executed alone: a group
is gone through until a clause settles it, at every level. As these verdicts do not depend on
what was visited before, neither does the trail.
-/

namespace Verdict

/-! ## Places -/

/-- The place of a clause in a condition: the index of the outermost clause around it, and so
on down to its own index. A negation has no place of its own. -/
abbrev Place :=
  List Nat

namespace Place

/-- The clause at one place is completed before that at another: it stands inside it, or in an
earlier clause of the group in which the two places part. -/
def Before : Place → Place → Prop
  | [], _ => False
  | _ :: _, [] => True
  | index :: place, other :: otherPlace =>
    index < other ∨ index = other ∧ Before place otherPlace

theorem not_before_self (place : Place) : ¬Before place place := by
  induction place with
  | nil => exact id
  | cons index place inductionHypothesis => simp [Before, inductionHypothesis]

/-- Places that come one before the other are distinct. -/
theorem nodup_of_pairwise_before
    {places : List Place}
    (ordered : places.Pairwise Before) :
    places.Nodup := by
  refine ordered.imp ?_
  rintro place other before rfl
  exact not_before_self place before

end Place

/-! ## Places of a condition -/

namespace Condition

/-- The clauses of a group or of its negation. -/
def clauses : Condition → List Clause
  | .all clauses => clauses
  | .any clauses => clauses
  | .not child => child.clauses
  | .reference _ => []
  | .leaf _ => []

/-- The verdict of a clause that settles a group. -/
def settling : Condition → Bool
  | .all _ => false
  | .any _ => true
  | .not child => child.settling
  | .reference _ => false
  | .leaf _ => false

/-- A clause of a condition is reached when none of the clauses before it settles the
group. -/
structure GoesTo (verdictOf : Clause → Except Error Bool) (condition : Condition) (index : Nat)
    (clause : Clause) : Prop where
  isClause : condition.clauses[index]? = some clause
  isOpen : ∀ earlier ∈ condition.clauses.take index,
    verdictOf earlier = .ok (!condition.settling)

/-- A clause at any depth of a condition is reached when it and every clause around it is
reached in its group. -/
inductive Reaches (verdictOf : Clause → Except Error Bool) :
    Condition → Place → Clause → Prop
  | here
      {condition : Condition}
      {index : Nat}
      {clause : Clause}
      (goesTo : condition.GoesTo verdictOf index clause) :
      Reaches verdictOf condition [index] clause
  | inside
      {condition : Condition}
      {index : Nat}
      {outer clause : Clause}
      {place : Place}
      (goesTo : condition.GoesTo verdictOf index outer)
      (reaches : Reaches verdictOf outer.condition place clause) :
      Reaches verdictOf condition (index :: place) clause

end Condition

/-! ## Places of a visit -/

namespace Visit

/-- The visited clauses of a group or of its negation. -/
def clauses : Visit → List ClauseVisit
  | .leaf _ _ => []
  | .reference _ _ => []
  | .not child => child.clauses
  | .all clauses => clauses
  | .any clauses => clauses

/-- A clause was visited at a place, itself or inside another one. What is visited to follow a
reference has no place. -/
inductive Shows : Visit → Place → ClauseVisit → Prop
  | here
      {visit : Visit}
      {index : Nat}
      {shown : ClauseVisit}
      (found : visit.clauses[index]? = some shown) :
      Shows visit [index] shown
  | inside
      {visit : Visit}
      {index : Nat}
      {outer shown : ClauseVisit}
      {place : Place}
      (found : visit.clauses[index]? = some outer)
      (shows : Shows outer.visit place shown) :
      Shows visit (index :: place) shown

mutual

/-- The clauses of the rule itself that failed, with their places, inner ones before outer
ones. -/
def trail : Visit → List (Place × Clause)
  | .leaf _ _ => []
  | .reference _ _ => []
  | .not child => child.trail
  | .all clauses => clauseTrail 0 clauses
  | .any clauses => clauseTrail 0 clauses

/-- The clauses that failed among visited clauses, the first of which has the given index, and
inside them. -/
def clauseTrail (index : Nat) : List ClauseVisit → List (Place × Clause)
  | [] => []
  | ⟨clause, visit⟩ :: rest =>
    visit.trail.map (fun entry => (index :: entry.1, entry.2)) ++
      (if visit.verdict then [] else [([index], clause)]) ++ clauseTrail (index + 1) rest

end

/-- What a visited clause adds to a trail: the clauses that failed inside it, and then itself if
it failed. -/
def trailOf (shown : ClauseVisit) (index : Nat) : List (Place × Clause) :=
  shown.visit.trail.map (fun entry => (index :: entry.1, entry.2)) ++
    if shown.visit.verdict then [] else [([index], shown.clause)]

theorem clauseTrail_eq_flatMap
    (index : Nat)
    (clauses : List ClauseVisit) :
    clauseTrail index clauses =
      (clauses.zipIdx index).flatMap fun entry => trailOf entry.1 entry.2 := by
  induction clauses generalizing index with
  | nil => rfl
  | cons shown rest inductionHypothesis =>
    obtain ⟨clause, visit⟩ := shown
    rw [clauseTrail, inductionHypothesis, List.zipIdx_cons, List.flatMap_cons]
    rfl

theorem trail_eq_flatMap (visit : Visit) :
    visit.trail = visit.clauses.zipIdx.flatMap fun entry => trailOf entry.1 entry.2 := by
  induction visit with
  | leaf | reference => rfl
  | not child inductionHypothesis => exact inductionHypothesis
  | all clauses | any clauses => exact clauseTrail_eq_flatMap 0 clauses

theorem map_snd_clauseTrail
    {clauses : List ClauseVisit}
    (inside : ∀ shown ∈ clauses, shown.visit.trail.map Prod.snd = shown.visit.failures)
    (index : Nat) :
    (clauseTrail index clauses).map Prod.snd = clauseFailures clauses := by
  induction clauses generalizing index with
  | nil => rfl
  | cons shown rest inductionHypothesis =>
    obtain ⟨clause, visit⟩ := shown
    obtain ⟨insideFirst, insideRest⟩ := List.forall_mem_cons.1 inside
    rw [clauseFailures, ← inductionHypothesis insideRest (index + 1), ← insideFirst, clauseTrail]
    cases verdict : visit.verdict <;> simp

/-- Without the places, a trail is the list of the clauses that failed. -/
theorem map_snd_trail (visit : Visit) : visit.trail.map Prod.snd = visit.failures := by
  induction visit with
  | leaf | reference => rfl
  | not child inductionHypothesis => exact inductionHypothesis
  | all clauses inductionHypothesis | any clauses inductionHypothesis =>
    exact map_snd_clauseTrail inductionHypothesis 0

theorem mem_trailOf_iff
    {shown : ClauseVisit}
    {index : Nat}
    {place : Place}
    {clause : Clause} :
    (place, clause) ∈ trailOf shown index ↔
      ∃ inner, place = index :: inner ∧ ((inner, clause) ∈ shown.visit.trail ∨
        inner = [] ∧ shown.clause = clause ∧ shown.visit.verdict = false) := by
  unfold trailOf
  cases verdict : shown.visit.verdict <;> simp <;> grind

/-- The places of a trail begin with the index of a visited clause. -/
theorem mem_trail_iff_exists
    {visit : Visit}
    {place : Place}
    {clause : Clause} :
    (place, clause) ∈ visit.trail ↔
      ∃ index inner outer, place = index :: inner ∧ visit.clauses[index]? = some outer ∧
        ((inner, clause) ∈ outer.visit.trail ∨
          inner = [] ∧ outer.clause = clause ∧ outer.visit.verdict = false) := by
  rw [trail_eq_flatMap]
  simp only [List.mem_flatMap, mem_trailOf_iff]
  constructor
  · rintro ⟨⟨outer, index⟩, isVisited, inner, rfl, listed⟩
    exact ⟨index, inner, outer, rfl, List.mem_zipIdx_iff_getElem?.1 isVisited, listed⟩
  · rintro ⟨index, inner, outer, rfl, isVisited, listed⟩
    exact ⟨(outer, index), List.mem_zipIdx_iff_getElem?.2 isVisited, inner, rfl, listed⟩

/-- A trail lists exactly the visited clauses that came to false. -/
theorem mem_trail_iff
    {visit : Visit}
    {place : Place}
    {clause : Clause} :
    (place, clause) ∈ visit.trail ↔
      ∃ shown, visit.Shows place shown ∧ shown.clause = clause ∧ shown.visit.verdict = false := by
  constructor
  · intro listed
    induction place generalizing visit with
    | nil =>
      obtain ⟨_, _, _, isPlace, _⟩ := mem_trail_iff_exists.1 listed
      exact nomatch isPlace
    | cons index place inductionHypothesis =>
      obtain ⟨_, _, outer, isPlace, found, listed⟩ := mem_trail_iff_exists.1 listed
      obtain ⟨rfl, rfl⟩ := List.cons.inj isPlace
      rcases listed with inside | ⟨rfl, rfl, fails⟩
      · obtain ⟨shown, shows, isClause, fails⟩ := inductionHypothesis inside
        exact ⟨shown, .inside found shows, isClause, fails⟩
      · exact ⟨outer, .here found, rfl, fails⟩
  · rintro ⟨shown, shows, rfl, fails⟩
    induction shows with
    | here found =>
      exact mem_trail_iff_exists.2 ⟨_, [], _, rfl, found, .inr ⟨rfl, rfl, fails⟩⟩
    | inside found _ inductionHypothesis =>
      exact mem_trail_iff_exists.2 ⟨_, _, _, rfl, found, .inl (inductionHypothesis fails)⟩

/-- What a visited clause adds to a trail is in order if the trail inside it is. -/
theorem pairwise_trailOf
    {shown : ClauseVisit}
    (inside : shown.visit.trail.Pairwise fun left right => left.1.Before right.1)
    (index : Nat) :
    (trailOf shown index).Pairwise fun left right => left.1.Before right.1 := by
  refine List.pairwise_append.2 ⟨?inside, ?itself, ?across⟩
  case inside =>
    rw [List.pairwise_map]
    exact inside.imp fun before => .inr ⟨rfl, before⟩
  case itself => split <;> simp
  case across =>
    intro inner isInner outer isOuter
    obtain ⟨entry, isEntry, rfl⟩ := List.mem_map.1 isInner
    obtain ⟨_, _, _, isPlace, _⟩ := mem_trail_iff_exists.1 isEntry
    split at isOuter
    · exact nomatch isOuter
    · obtain rfl := List.mem_singleton.1 isOuter
      exact .inr ⟨rfl, by rw [isPlace]; trivial⟩

theorem pairwise_lt_zipIdx (clauses : List ClauseVisit) :
    clauses.zipIdx.Pairwise fun left right => left.2 < right.2 := by
  rw [← List.pairwise_map (f := Prod.snd)]
  exact List.zipIdx_map_snd 0 clauses ▸ List.pairwise_lt_range'

/-- A trail is in the order in which visits to clauses are completed. -/
theorem pairwise_trail (visit : Visit) :
    visit.trail.Pairwise fun left right => left.1.Before right.1 := by
  induction visit with
  | leaf | reference => exact .nil
  | not child inductionHypothesis => exact inductionHypothesis
  | all clauses inductionHypothesis | any clauses inductionHypothesis =>
    rw [trail, clauseTrail_eq_flatMap, List.pairwise_flatMap]
    constructor
    · rintro ⟨shown, index⟩ isEntry
      exact pairwise_trailOf (inductionHypothesis _ (List.fst_mem_of_mem_zipIdx isEntry)) index
    · -- the places under two clauses of a group part at their indices
      refine (pairwise_lt_zipIdx clauses).imp ?_
      rintro left right less ⟨place, _⟩ isLeft ⟨other, _⟩ isRight
      obtain ⟨_, rfl, _⟩ := mem_trailOf_iff.1 isLeft
      obtain ⟨_, rfl, _⟩ := mem_trailOf_iff.1 isRight
      exact .inl less

end Visit

/-! ## Which places are visited -/

namespace Condition

variable {facts : Facts} {follow : String → Except Error Visit} {condition : Condition}
  {visit : Visit}

/-- The verdict of a clause when its condition is visited alone. -/
def clauseVerdict (facts : Facts) (follow : String → Except Error Visit) (clause : Clause) :
    Except Error Bool :=
  (clause.condition.visit facts follow).map Visit.verdict

/-- The clauses of a condition are visited until one of them settles it. -/
theorem visitUntil_clauses
    (visited : condition.visit facts follow = .ok visit) :
    visitUntil facts follow condition.settling condition.clauses = .ok visit.clauses := by
  induction condition generalizing visit with
  | leaf comparison =>
    obtain ⟨matched, _, rfl⟩ := exists_of_map visited
    rfl
  | reference name =>
    obtain ⟨body, _, rfl⟩ := exists_of_map visited
    rfl
  | not child inductionHypothesis =>
    obtain ⟨inner, visitedChild, rfl⟩ := exists_of_map visited
    have visitedClauses := inductionHypothesis visitedChild
    exact visitedClauses
  | all clauses | any clauses =>
    obtain ⟨visits, visitedClauses, rfl⟩ := exists_of_map visited
    exact visitedClauses

/-- Of several clauses those are visited before which no clause settles the group. -/
theorem getElem?_visitUntil_iff
    {settling : Bool}
    {clauses : List Clause}
    {visits : List ClauseVisit}
    (visited : visitUntil facts follow settling clauses = .ok visits)
    {index : Nat}
    {clause : Clause} :
    (∃ shown, visits[index]? = some shown ∧ shown.clause = clause) ↔
      clauses[index]? = some clause ∧
        ∀ earlier ∈ clauses.take index, clauseVerdict facts follow earlier = .ok (!settling) := by
  induction clauses generalizing index visits with
  | nil =>
    obtain rfl : [] = visits := Except.ok.inj visited
    simp
  | cons first rest inductionHypothesis =>
    cases visitedFirst : first.condition.visit facts follow with
    | error error => exact nomatch (visitUntil_of_error visitedFirst rest).symm.trans visited
    | ok visit =>
      have verdict : clauseVerdict facts follow first = .ok visit.verdict := by
        rw [clauseVerdict, visitedFirst]
        rfl
      by_cases settled : visit.verdict = settling
      · -- behind a clause that settles the group neither side has any clause
        rw [visitUntil_of_settled visitedFirst settled] at visited
        obtain rfl : [⟨first, visit⟩] = visits := Except.ok.inj visited
        cases index <;> simp [verdict, settled]
      · rw [visitUntil_of_open visitedFirst settled] at visited
        obtain ⟨others, visitedRest, rfl⟩ := exists_of_map visited
        cases index with
        | zero => simp
        | succ index => simp [verdict, Bool.eq_not.2 settled, inductionHypothesis visitedRest]

theorem exists_getElem?_clauses_iff
    (visited : condition.visit facts follow = .ok visit)
    {index : Nat}
    {clause : Clause} :
    (∃ shown, visit.clauses[index]? = some shown ∧ shown.clause = clause) ↔
      condition.GoesTo (clauseVerdict facts follow) index clause := by
  rw [getElem?_visitUntil_iff (visitUntil_clauses visited)]
  exact ⟨fun ⟨isClause, isOpen⟩ => ⟨isClause, isOpen⟩,
    fun ⟨isClause, isOpen⟩ => ⟨isClause, isOpen⟩⟩

theorem visit_of_getElem?_clauses
    (visited : condition.visit facts follow = .ok visit)
    {index : Nat}
    {shown : ClauseVisit}
    (found : visit.clauses[index]? = some shown) :
    shown.clause.condition.visit facts follow = .ok shown.visit :=
  (mem_of_visitUntil (visitUntil_clauses visited) (List.mem_of_getElem? found)).2

/-- A clause that was visited at a place is reached there, and its visit is the one that its
condition has alone. -/
theorem reaches_of_shows
    {place : Place}
    {shown : ClauseVisit}
    (shows : visit.Shows place shown)
    (visited : condition.visit facts follow = .ok visit) :
    condition.Reaches (clauseVerdict facts follow) place shown.clause ∧
      shown.clause.condition.visit facts follow = .ok shown.visit := by
  induction shows generalizing condition with
  | here found =>
    have goesTo := (exists_getElem?_clauses_iff visited).1 ⟨_, found, rfl⟩
    exact ⟨.here goesTo, visit_of_getElem?_clauses visited found⟩
  | inside found _ inductionHypothesis =>
    have goesTo := (exists_getElem?_clauses_iff visited).1 ⟨_, found, rfl⟩
    obtain ⟨reaches, visitedShown⟩ :=
      inductionHypothesis (visit_of_getElem?_clauses visited found)
    exact ⟨.inside goesTo reaches, visitedShown⟩

/-- A clause that is reached at a place was visited there. -/
theorem shows_of_reaches
    {place : Place}
    {clause : Clause}
    (reaches : condition.Reaches (clauseVerdict facts follow) place clause)
    (visited : condition.visit facts follow = .ok visit) :
    ∃ shown, visit.Shows place shown ∧ shown.clause = clause := by
  induction reaches generalizing visit with
  | here goesTo =>
    obtain ⟨shown, found, isClause⟩ := (exists_getElem?_clauses_iff visited).2 goesTo
    exact ⟨shown, .here found, isClause⟩
  | inside goesTo _ inductionHypothesis =>
    obtain ⟨outer, found, rfl⟩ := (exists_getElem?_clauses_iff visited).2 goesTo
    obtain ⟨shown, shows, isClause⟩ :=
      inductionHypothesis (visit_of_getElem?_clauses visited found)
    exact ⟨shown, .inside found shows, isClause⟩

end Condition

namespace Executor

variable {executor : Executor} {rule : Rule} {evaluation : Evaluation}

/-- A clause comes to the same alone and when its condition is visited for the rule. -/
theorem verdictOf_eq_clauseVerdict
    (room : ¬executor.maxDepth ≤ 0)
    (rule : Rule) :
    executor.verdictOf rule = Condition.clauseVerdict executor.facts
      (executor.registry.follow (executor.visitFrom [rule.name])) := by
  funext clause
  rw [verdictOf, executeAlone, execute_eq_visit, visit_of_room room, Condition.clauseVerdict]
  cases clause.condition.visit _ _ <;> rfl

/-- A trail accounts for an evaluation of a rule: without the places it is the list of failed
clauses, and it lists exactly the places of the rule that are reached and come to false, each
once and in the order in which clauses are completed. A listed clause fails alone, whatever
the events are of the rule that has its condition. -/
structure Accounts (executor : Executor) (rule : Rule) (evaluation : Evaluation)
    (trail : List (Place × Clause)) : Prop where
  reported : trail.map Prod.snd = evaluation.failedConditions
  once : (trail.map Prod.fst).Nodup
  ordered : (trail.map Prod.fst).Pairwise Place.Before
  lists : ∀ place clause, (place, clause) ∈ trail ↔
    rule.condition.Reaches (executor.verdictOf rule) place clause ∧
      executor.verdictOf rule clause = .ok false
  alone : ∀ place clause, (place, clause) ∈ trail → ∀ other : Rule,
    other.name = rule.name → other.condition = clause.condition →
      ∃ evaluation, executor.execute other = .ok evaluation ∧ evaluation.verdict = false

/-- The failed clauses of an evaluation are those of the rule itself that were visited and came
to false. A place was visited exactly if it is reached by the verdicts that clauses have alone,
and the visits to clauses came to these verdicts. -/
theorem failures_are_those_visited
    (executed : executor.execute rule = .ok evaluation) :
    ∃ visit, executor.visit rule = .ok visit ∧
      (∀ place clause, (∃ shown, visit.Shows place shown ∧ shown.clause = clause) ↔
        rule.condition.Reaches (executor.verdictOf rule) place clause) ∧
      (∀ place shown, visit.Shows place shown →
        executor.verdictOf rule shown.clause = .ok shown.visit.verdict) ∧
      executor.Accounts rule evaluation visit.trail := by
  obtain ⟨room, visit, visited, visitedCondition, rfl⟩ := exists_visit_of_execute executed
  have shows_iff : ∀ place clause, (∃ shown, visit.Shows place shown ∧ shown.clause = clause) ↔
      rule.condition.Reaches (executor.verdictOf rule) place clause := by
    intro place clause
    rw [verdictOf_eq_clauseVerdict room]
    constructor
    · rintro ⟨shown, shows, rfl⟩
      exact (Condition.reaches_of_shows shows visitedCondition).1
    · exact fun reaches => Condition.shows_of_reaches reaches visitedCondition
  have verdictOf_shown : ∀ place shown, visit.Shows place shown →
      executor.verdictOf rule shown.clause = .ok shown.visit.verdict := by
    intro place shown shows
    exact verdictOf_of_visit room (Condition.reaches_of_shows shows visitedCondition).2
  have ordered : (visit.trail.map Prod.fst).Pairwise Place.Before :=
    List.pairwise_map.2 visit.pairwise_trail
  refine ⟨visit, visited, shows_iff, verdictOf_shown, visit.map_snd_trail,
    Place.nodup_of_pairwise_before ordered, ordered, ?lists, ?alone⟩
  case lists =>
    intro place clause
    rw [Visit.mem_trail_iff, ← shows_iff]
    constructor
    · rintro ⟨shown, shows, rfl, fails⟩
      exact ⟨⟨shown, shows, rfl⟩, fails ▸ verdictOf_shown place shown shows⟩
    · rintro ⟨⟨shown, shows, rfl⟩, fails⟩
      have comesTo := verdictOf_shown place shown shows
      exact ⟨shown, shows, rfl, Except.ok.inj (comesTo.symm.trans fails)⟩
  case alone =>
    intro place clause listed other sameName sameCondition
    obtain ⟨shown, shows, rfl, fails⟩ := Visit.mem_trail_iff.1 listed
    have visitedOther : other.condition.visit executor.facts
        (executor.registry.follow (executor.visitFrom [other.name])) = .ok shown.visit := by
      rw [sameName, sameCondition]
      exact (Condition.reaches_of_shows shows visitedCondition).2
    exact ⟨_, execute_of_visit room visitedOther, fails⟩

/-- The rule whose first branch fails reports a clause inside that branch, and then the
branch. -/
theorem failures_of_leaky :
    ∃ evaluation visit, bare.execute leaky = .ok evaluation ∧ bare.visit leaky = .ok visit ∧
      bare.Accounts leaky evaluation visit.trail ∧ visit.trail.map Prod.fst = [[0, 1], [0]] := by
  have places : (bare.visit leaky).map (fun visit => visit.trail.map Prod.fst) =
      .ok [[0, 1], [0]] := by
    rw [visit, visitFrom, if_neg (by decide), if_neg (by decide)]
    rfl
  obtain ⟨evaluation, _, executed, _⟩ := execute_leaky
  obtain ⟨visit, visited, _, _, accounts⟩ := failures_are_those_visited executed
  rw [visited] at places
  exact ⟨evaluation, visit, executed, visited, accounts, Except.ok.inj places⟩

end Executor
end Verdict
