import Verdict.Proofs.FailureTrail

/-!
# Descent into conditions

An evaluation goes down from the condition of the executed rule to its parts, and through
references into other rules. This module says where it gets to, also when it fails in the end.
A clause of a group is reached when every clause before it left the group open, and a rule is
entered when a reference to it is reached that is neither circular nor too deep.

What is reached is told by verdicts of clauses, each evaluated alone with the names of the
entered rules on the stack. Verdicts do not depend on the stack, as long as there are any: a
condition that is visited successfully on two stacks is visited in the same way.
-/

namespace Verdict

/-- A step down from a condition to a part of it, or through a reference into the rule that
it names. -/
inductive Step where
  | all (index : Nat)
  | any (index : Nat)
  | not
  | enter (rule : String)
  deriving DecidableEq

/-- A step does not lead into another rule. -/
def Step.StaysInside (step : Step) : Prop :=
  ∀ rule, step ≠ .enter rule

namespace Condition

/-- The evaluation of a condition gets down to a part of it. The steps stay inside one rule. -/
inductive LeadsTo (verdictOf : Clause → Except Error Bool) :
    Condition → List Step → Condition → Prop
  | here {condition : Condition} : LeadsTo verdictOf condition [] condition
  | not
      {child part : Condition}
      {steps : List Step}
      (leads : LeadsTo verdictOf child steps part) :
      LeadsTo verdictOf (.not child) (.not :: steps) part
  | all
      {clauses : List Clause}
      {index : Nat}
      {clause : Clause}
      {part : Condition}
      {steps : List Step}
      (goesTo : (Condition.all clauses).GoesTo verdictOf index clause)
      (leads : LeadsTo verdictOf clause.condition steps part) :
      LeadsTo verdictOf (.all clauses) (.all index :: steps) part
  | any
      {clauses : List Clause}
      {index : Nat}
      {clause : Clause}
      {part : Condition}
      {steps : List Step}
      (goesTo : (Condition.any clauses).GoesTo verdictOf index clause)
      (leads : LeadsTo verdictOf clause.condition steps part) :
      LeadsTo verdictOf (.any clauses) (.any index :: steps) part

variable {verdictOf other : Clause → Except Error Bool} {condition part last : Condition}
  {steps more : List Step}

/-- What is reached from a part is reached from the whole. -/
theorem LeadsTo.trans
    (leads : condition.LeadsTo verdictOf steps part)
    (goesOn : part.LeadsTo verdictOf more last) :
    condition.LeadsTo verdictOf (steps ++ more) last := by
  induction leads with
  | here => exact goesOn
  | not _ inductionHypothesis => exact .not (inductionHypothesis goesOn)
  | all goesTo _ inductionHypothesis => exact .all goesTo (inductionHypothesis goesOn)
  | any goesTo _ inductionHypothesis => exact .any goesTo (inductionHypothesis goesOn)

/-- Steps lead to one part only, whatever the verdicts are. -/
theorem LeadsTo.part_eq
    (leads : condition.LeadsTo verdictOf steps part)
    (leadsToo : condition.LeadsTo other steps last) :
    part = last := by
  induction leads with
  | here =>
    cases leadsToo
    rfl
  | not _ inductionHypothesis =>
    cases leadsToo with
    | not leadsToo => exact inductionHypothesis leadsToo
  | all goesTo _ inductionHypothesis =>
    cases leadsToo with
    | all goesToo leadsToo =>
      obtain rfl := Option.some.inj (goesTo.isClause.symm.trans goesToo.isClause)
      exact inductionHypothesis leadsToo
  | any goesTo _ inductionHypothesis =>
    cases leadsToo with
    | any goesToo leadsToo =>
      obtain rfl := Option.some.inj (goesTo.isClause.symm.trans goesToo.isClause)
      exact inductionHypothesis leadsToo

theorem LeadsTo.stayInside (leads : condition.LeadsTo verdictOf steps part) :
    ∀ step ∈ steps, step.StaysInside := by
  induction leads with
  | here => exact List.forall_mem_nil _
  | not _ inductionHypothesis | all _ _ inductionHypothesis | any _ _ inductionHypothesis =>
    exact List.forall_mem_cons.2 ⟨nofun, inductionHypothesis⟩

/-- A reference that is reached is mentioned. -/
theorem LeadsTo.mentions
    {name : String}
    (leads : condition.LeadsTo verdictOf steps (.reference name)) :
    condition.Mentions name := by
  generalize isReference : Condition.reference name = part at leads
  induction leads with
  | here => exact isReference ▸ .self
  | not _ inductionHypothesis => exact .not (inductionHypothesis isReference)
  | all goesTo _ inductionHypothesis =>
    exact .all (List.mem_of_getElem? goesTo.isClause) (inductionHypothesis isReference)
  | any goesTo _ inductionHypothesis =>
    exact .any (List.mem_of_getElem? goesTo.isClause) (inductionHypothesis isReference)

/-! ## Clauses at places -/

/-- The clause at a place of a condition. -/
def clauseAt? (condition : Condition) : Place → Option Clause
  | [] => none
  | [index] => condition.clauses[index]?
  | index :: inner :: place =>
    condition.clauses[index]?.bind fun clause => clause.condition.clauseAt? (inner :: place)

/-- A clause that is reached at a place stands there. -/
theorem clauseAt?_of_reaches
    {place : Place}
    {clause : Clause}
    (reaches : condition.Reaches verdictOf place clause) :
    condition.clauseAt? place = some clause := by
  induction reaches with
  | here goesTo => exact goesTo.isClause
  | inside goesTo reaches inductionHypothesis =>
    cases reaches with
    | here | inside => rw [clauseAt?, goesTo.isClause, Option.bind_some, inductionHypothesis]

/-- A clause of a trail stands at its place. -/
theorem clauseAt?_of_mem_trail
    {facts : Facts}
    {follow : String → Except Error Visit}
    {visit : Visit}
    {place : Place}
    {clause : Clause}
    (visited : condition.visit facts follow = .ok visit)
    (listed : (place, clause) ∈ visit.trail) :
    condition.clauseAt? place = some clause := by
  obtain ⟨shown, shows, rfl, _⟩ := Visit.mem_trail_iff.1 listed
  exact clauseAt?_of_reaches (reaches_of_shows shows visited).1

/-! ## Visits on different stacks -/

section

variable {facts : Facts} {follow otherFollow : String → Except Error Visit} {settling : Bool}

/-- The same clauses are visited in the same way if the visits to their conditions cannot
differ. -/
theorem visits_eq_of_visitUntil
    {clauses : List Clause}
    {visits others : List ClauseVisit}
    (unique : ∀ clause ∈ clauses, ∀ visit other,
      clause.condition.visit facts follow = .ok visit →
        clause.condition.visit facts otherFollow = .ok other → visit = other)
    (visited : visitUntil facts follow settling clauses = .ok visits)
    (visitedToo : visitUntil facts otherFollow settling clauses = .ok others) :
    visits = others := by
  induction clauses generalizing visits others with
  | nil => exact Except.ok.inj (visited.symm.trans visitedToo)
  | cons clause rest inductionHypothesis =>
    obtain ⟨uniqueFirst, uniqueRest⟩ := List.forall_mem_cons.1 unique
    cases visitedFirst : clause.condition.visit facts follow with
    | error error => exact nomatch (visitUntil_of_error visitedFirst rest).symm.trans visited
    | ok visit =>
      cases visitedFirstToo : clause.condition.visit facts otherFollow with
      | error error =>
        exact nomatch (visitUntil_of_error visitedFirstToo rest).symm.trans visitedToo
      | ok other =>
        obtain rfl : visit = other := uniqueFirst _ _ visitedFirst visitedFirstToo
        by_cases settled : visit.verdict = settling
        · rw [visitUntil_of_settled visitedFirst settled] at visited
          rw [visitUntil_of_settled visitedFirstToo settled] at visitedToo
          exact Except.ok.inj (visited.symm.trans visitedToo)
        · rw [visitUntil_of_open visitedFirst settled] at visited
          rw [visitUntil_of_open visitedFirstToo settled] at visitedToo
          obtain ⟨visitsRest, visitedRest, rfl⟩ := exists_of_map visited
          obtain ⟨othersRest, visitedRestToo, rfl⟩ := exists_of_map visitedToo
          rw [inductionHypothesis uniqueRest visitedRest visitedRestToo]

/-- A condition is visited in the same way if the visits to rules cannot differ. -/
theorem visit_eq_of_visits
    {visit other : Visit}
    (unique : ∀ name body otherBody,
      follow name = .ok body → otherFollow name = .ok otherBody → body = otherBody)
    (visited : condition.visit facts follow = .ok visit)
    (visitedToo : condition.visit facts otherFollow = .ok other) :
    visit = other := by
  induction condition generalizing visit other with
  | leaf comparison => exact Except.ok.inj (visited.symm.trans visitedToo)
  | reference name =>
    obtain ⟨body, followed, rfl⟩ := exists_of_map visited
    obtain ⟨otherBody, followedToo, rfl⟩ := exists_of_map visitedToo
    rw [unique name body otherBody followed followedToo]
  | not child inductionHypothesis =>
    obtain ⟨inner, visitedChild, rfl⟩ := exists_of_map visited
    obtain ⟨otherInner, visitedChildToo, rfl⟩ := exists_of_map visitedToo
    rw [inductionHypothesis visitedChild visitedChildToo]
  | all clauses inductionHypothesis | any clauses inductionHypothesis =>
    obtain ⟨visits, visitedClauses, rfl⟩ := exists_of_map visited
    obtain ⟨others, visitedClausesToo, rfl⟩ := exists_of_map visitedToo
    rw [visits_eq_of_visitUntil (fun clause member _ _ => inductionHypothesis clause member)
      visitedClauses visitedClausesToo]

end

end Condition

namespace Registry

variable {α : Type} {registry : Registry} {ofRule : Rule → Except Error α} {name : String}
  {rule : Rule} {value : α}

theorem follow_of_get? (found : registry.get? name = some rule) :
    registry.follow ofRule name = ofRule rule := by
  rw [follow, found]

/-- A name that leads to something is that of a registered rule. -/
theorem exists_of_follow (followed : registry.follow ofRule name = .ok value) :
    ∃ rule, registry.get? name = some rule ∧ ofRule rule = .ok value := by
  cases found : registry.get? name with
  | none =>
    rw [follow, found] at followed
    cases followed
  | some rule => exact ⟨rule, rfl, (follow_of_get? found).symm.trans followed⟩

end Registry

namespace Executor

/-- The verdict of a clause that is evaluated with the given names on the stack. -/
def verdictIn (executor : Executor) (stack : List String) : Clause → Except Error Bool :=
  Condition.clauseVerdict executor.facts (executor.registry.follow (executor.visitFrom stack))

/-- A rule is entered while another one is executed, on the stack of those that were entered
before and not left. The steps lead to it from the condition of the executed rule. -/
inductive Enters (executor : Executor) (executed : Rule) :
    List Step → List String → Rule → Prop
  | start (room : ¬executor.maxDepth ≤ 0) : Enters executor executed [] [] executed
  | next
      {path steps : List Step}
      {stack : List String}
      {rule other : Rule}
      (entered : Enters executor executed path stack rule)
      (leads : rule.condition.LeadsTo (executor.verdictIn (stack ++ [rule.name])) steps
        (.reference other.name))
      (found : executor.registry.get? other.name = some other)
      (isNew : other.name ∉ stack ++ [rule.name])
      (room : ¬executor.maxDepth ≤ (stack ++ [rule.name]).length) :
      Enters executor executed (path ++ steps ++ [.enter other.name]) (stack ++ [rule.name]) other

/-- A part of a rule is visited while another rule is executed. -/
structure Visits (executor : Executor) (executed : Rule) (path : List Step) (stack : List String)
    (rule : Rule) (steps : List Step) (part : Condition) : Prop where
  entered : executor.Enters executed path stack rule
  leads : rule.condition.LeadsTo (executor.verdictIn (stack ++ [rule.name])) steps part

variable {executor : Executor} {stack otherStack : List String} {visit other : Visit}

section

variable {executed rule target : Rule} {path otherPath : List Step}

/-- Where a rule is entered, there is room for one. -/
theorem Enters.room (entered : executor.Enters executed path stack rule) :
    ¬executor.maxDepth ≤ 0 := by
  induction entered with
  | start room => exact room
  | next _ _ _ _ _ inductionHypothesis => exact inductionHypothesis

/-- The executed rule stays on the stack. -/
theorem Enters.mem_stack (entered : executor.Enters executed path stack rule) :
    executed.name ∈ stack ++ [rule.name] := by
  induction entered with
  | start => exact List.mem_cons_self
  | next _ _ _ _ _ inductionHypothesis => exact List.mem_append_left _ inductionHypothesis

/-- A rule that is entered is the executed one, or a registered one of another name. -/
theorem Enters.eq_or_registered (entered : executor.Enters executed path stack rule) :
    rule = executed ∨
      rule.name ≠ executed.name ∧ executor.registry.get? rule.name = some rule := by
  cases entered with
  | start => exact .inl rfl
  | next before _ found isNew =>
    exact .inr ⟨fun same => isNew (same ▸ before.mem_stack), found⟩

/-- Only one rule of a name is entered. -/
theorem Enters.rule_eq
    (entered : executor.Enters executed path stack rule)
    (enteredToo : executor.Enters executed otherPath otherStack target)
    (sameName : rule.name = target.name) :
    rule = target := by
  rcases entered.eq_or_registered with rfl | ⟨isOther, found⟩
  · rcases enteredToo.eq_or_registered with rfl | ⟨isOther, _⟩
    · rfl
    · exact absurd sameName.symm isOther
  · rcases enteredToo.eq_or_registered with rfl | ⟨_, foundToo⟩
    · exact absurd sameName isOther
    · exact Option.some.inj (found.symm.trans (sameName ▸ foundToo))

end

/-- A rule that is visited successfully on two stacks is visited in the same way. -/
theorem visit_eq_of_visitFrom
    {rule : Rule}
    (visited : executor.visitFrom stack rule = .ok visit)
    (visitedToo : executor.visitFrom otherStack rule = .ok other) :
    visit = other := by
  induction stack, rule using visitFrom.induct executor generalizing otherStack visit other with
  | case1 stack rule entered => exact absurd entered (room_of_visitFrom visited).1
  | case2 stack rule isNew full => exact absurd full (room_of_visitFrom visited).2
  | case3 stack rule isNew room inductionHypothesis =>
    obtain ⟨otherIsNew, otherRoom⟩ := room_of_visitFrom visitedToo
    rw [visitFrom, if_neg isNew, if_neg room] at visited
    rw [visitFrom, if_neg otherIsNew, if_neg otherRoom] at visitedToo
    refine Condition.visit_eq_of_visits ?_ visited visitedToo
    intro name body otherBody followed followedToo
    obtain ⟨next, found, visitedNext⟩ := Registry.exists_of_follow followed
    rw [Registry.follow_of_get? found] at followedToo
    exact inductionHypothesis next visitedNext followedToo

/-- The verdict of a clause does not depend on the stack, as long as there is one. -/
theorem verdict_eq_of_verdictIn
    {clause : Clause}
    {verdict otherVerdict : Bool}
    (comesTo : executor.verdictIn stack clause = .ok verdict)
    (comesToo : executor.verdictIn otherStack clause = .ok otherVerdict) :
    verdict = otherVerdict := by
  obtain ⟨visit, visited, rfl⟩ := exists_of_map comesTo
  obtain ⟨other, visitedToo, rfl⟩ := exists_of_map comesToo
  refine congrArg Visit.verdict (Condition.visit_eq_of_visits ?_ visited visitedToo)
  intro name body otherBody followed followedToo
  obtain ⟨rule, found, visitedRule⟩ := Registry.exists_of_follow followed
  rw [Registry.follow_of_get? found] at followedToo
  exact visit_eq_of_visitFrom visitedRule followedToo

end Executor
end Verdict
