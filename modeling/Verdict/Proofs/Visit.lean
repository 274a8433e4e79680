import Verdict.Executor
import Verdict.Proofs.Fallible

/-!
# Visits

A visit is the tree of everything that is evaluated to decide a condition. It
has a node for each condition that is reached, and inside a reference the visit
to the rule that is named.

Visits describe evaluation without a state: which conditions are reached depends
on verdicts alone, and everything that an evaluation reports can be read off the
tree afterwards.
-/

namespace Verdict

mutual

/-- What was visited to decide a condition. -/
inductive Visit where
  | leaf (leaf : Leaf) (matched : Bool)
  | reference (rule : String) (body : Visit)
  | not (child : Visit)
  | all (clauses : List ClauseVisit)
  | any (clauses : List ClauseVisit)

/-- A clause of a group that was visited. -/
structure ClauseVisit where
  clause : Clause
  visit : Visit

end

namespace Visit

/-- Induction on visits, with a hypothesis for every visited clause of a group. -/
@[induction_eliminator]
theorem induction
    {motive : Visit → Prop}
    (leaf : ∀ comparison matched, motive (.leaf comparison matched))
    (reference : ∀ rule body, motive body → motive (.reference rule body))
    (not : ∀ child, motive child → motive (.not child))
    (all : ∀ clauses, (∀ clause ∈ clauses, motive clause.visit) → motive (.all clauses))
    (any : ∀ clauses, (∀ clause ∈ clauses, motive clause.visit) → motive (.any clauses))
    (visit : Visit) :
    motive visit :=
  @Visit.rec motive
    (fun clause => motive clause.visit)
    (fun clauses => ∀ clause ∈ clauses, motive clause.visit)
    leaf reference not all any
    (fun _ _ ofVisit => ofVisit)
    nofun
    (fun _ _ ofClause ofRest => List.forall_mem_cons.2 ⟨ofClause, ofRest⟩)
    visit

/-! ## What a visit shows -/

mutual

/-- Whether the condition that was visited holds. -/
def verdict : Visit → Bool
  | .leaf _ matched => matched
  | .reference _ body => body.verdict
  | .not child => !child.verdict
  | .all clauses => allHold clauses
  | .any clauses => anyHolds clauses

/-- Whether every clause that was visited holds. -/
def allHold : List ClauseVisit → Bool
  | [] => true
  | ⟨_, visit⟩ :: rest => visit.verdict && allHold rest

/-- Whether some clause that was visited holds. -/
def anyHolds : List ClauseVisit → Bool
  | [] => false
  | ⟨_, visit⟩ :: rest => visit.verdict || anyHolds rest

end

theorem allHold_eq_all (clauses : List ClauseVisit) :
    allHold clauses = clauses.all (·.visit.verdict) := by
  induction clauses with
  | nil => rfl
  | cons clause rest inductionHypothesis =>
    obtain ⟨clause, visit⟩ := clause
    rw [allHold, inductionHypothesis, List.all_cons]

theorem anyHolds_eq_any (clauses : List ClauseVisit) :
    anyHolds clauses = clauses.any (·.visit.verdict) := by
  induction clauses with
  | nil => rfl
  | cons clause rest inductionHypothesis =>
    obtain ⟨clause, visit⟩ := clause
    rw [anyHolds, inductionHypothesis, List.any_cons]

mutual

/-- The clauses of the rule itself that failed, inner ones before outer ones. -/
def failures : Visit → List Clause
  | .leaf _ _ => []
  | .reference _ _ => []
  | .not child => child.failures
  | .all clauses => clauseFailures clauses
  | .any clauses => clauseFailures clauses

/-- The clauses that failed among clauses that were visited and inside them. -/
def clauseFailures : List ClauseVisit → List Clause
  | [] => []
  | ⟨clause, visit⟩ :: rest =>
    visit.failures ++ (if visit.verdict then [] else [clause]) ++ clauseFailures rest

end

theorem clauseFailures_eq_flatMap (clauses : List ClauseVisit) :
    clauseFailures clauses =
      clauses.flatMap fun shown =>
        shown.visit.failures ++ if shown.visit.verdict then [] else [shown.clause] := by
  induction clauses with
  | nil => rfl
  | cons clause rest inductionHypothesis =>
    obtain ⟨clause, visit⟩ := clause
    rw [clauseFailures, inductionHypothesis, List.flatMap_cons]

mutual

/-- The rules that the rule itself asked, in order, each as often as it asked. -/
def asked : Visit → List String
  | .leaf _ _ => []
  | .reference rule _ => [rule]
  | .not child => child.asked
  | .all clauses => clauseAsked clauses
  | .any clauses => clauseAsked clauses

/-- The rules that were asked inside clauses that were visited. -/
def clauseAsked : List ClauseVisit → List String
  | [] => []
  | ⟨_, visit⟩ :: rest => visit.asked ++ clauseAsked rest

end

/-- The event of the last clause that was visited, or the given one if none was. -/
def lastEvent (before : Option Event) : List ClauseVisit → Option Event
  | [] => before
  | ⟨clause, _⟩ :: rest => lastEvent clause.event rest

mutual

/-- The events that groups put in place of the event of the rule, in order: a
group that holds puts the event of its last visited clause, if that has one. -/
def overrides : Visit → List Event
  | .leaf _ _ => []
  | .reference _ _ => []
  | .not child => child.overrides
  | .all clauses =>
    clauseOverrides clauses ++ (if allHold clauses then (lastEvent none clauses).toList else [])
  | .any clauses =>
    clauseOverrides clauses ++ (if anyHolds clauses then (lastEvent none clauses).toList else [])

/-- The events that groups inside clauses put in place. -/
def clauseOverrides : List ClauseVisit → List Event
  | [] => []
  | ⟨_, visit⟩ :: rest => visit.overrides ++ clauseOverrides rest

end

/-- The index of the last of several clauses, the first of which has the given index. -/
def lastIndex (index : Nat) (clauses : List ClauseVisit) : Nat :=
  index + clauses.length - 1

/-- What was visited came to, without what was visited inside it. -/
def stepText : Visit → String
  | .leaf comparison matched => Trace.leafText comparison comparison.operator matched
  | .reference rule body => Trace.referenceText rule body.verdict
  | .not child => Trace.negationText !child.verdict
  | .all clauses =>
    Trace.allText (if allHold clauses then none else some (lastIndex 0 clauses))
  | .any clauses =>
    Trace.anyText (if anyHolds clauses then some (lastIndex 0 clauses) else none)

mutual

/-- The lines of a visit, each under the address of what was visited, inner ones
before outer ones. Below a reference the addresses begin with the rule. -/
def trace (address : String) : Visit → List String
  | .leaf comparison matched => [Trace.line address (stepText (.leaf comparison matched))]
  | .reference rule body =>
    trace rule body ++ [Trace.line address (stepText (.reference rule body))]
  | .not child =>
    trace (Trace.childAddress address) child ++ [Trace.line address (stepText (.not child))]
  | .all clauses =>
    clauseTrace address "all" 0 clauses ++ [Trace.line address (stepText (.all clauses))]
  | .any clauses =>
    clauseTrace address "any" 0 clauses ++ [Trace.line address (stepText (.any clauses))]

/-- The lines inside clauses that were visited, the first of which has the given index. -/
def clauseTrace (group word : String) (index : Nat) : List ClauseVisit → List String
  | [] => []
  | ⟨_, visit⟩ :: rest =>
    trace (Trace.clauseAddress group word index) visit ++ clauseTrace group word (index + 1) rest

end

end Visit

/-! ## Which conditions are visited -/

namespace Leaf

/-- Whether a leaf holds: finds its operator, then the fact, and compares. -/
def matches? (facts : Facts) (leaf : Leaf) : Except Error Bool := do
  let operator ← leaf.operator?
  let fact ← facts.get leaf.fact leaf.path
  operator.evaluate fact leaf.value

end Leaf

namespace Condition

mutual

/-- Visits a condition, given how the rule of a name is visited. -/
def visit (facts : Facts) (follow : String → Except Error Visit) :
    Condition → Except Error Visit
  | .all clauses => (visitUntil facts follow false clauses).map .all
  | .any clauses => (visitUntil facts follow true clauses).map .any
  | .not child => (visit facts follow child).map .not
  | .reference rule => (follow rule).map (.reference rule)
  | .leaf comparison => (comparison.matches? facts).map (.leaf comparison)

/-- Visits clauses up to and including the first one of the given verdict. -/
def visitUntil (facts : Facts) (follow : String → Except Error Visit) (settling : Bool) :
    List Clause → Except Error (List ClauseVisit)
  | [] => .ok []
  | ⟨name, event, condition⟩ :: rest => do
    let visited ← visit facts follow condition
    let first : ClauseVisit := ⟨⟨name, event, condition⟩, visited⟩
    if visited.verdict = settling then return [first]
    else do
      let others ← visitUntil facts follow settling rest
      return first :: others

end

section

variable {facts : Facts} {follow : String → Except Error Visit} {settling : Bool}

/-- A clause that cannot be visited ends the visits. -/
theorem visitUntil_of_error
    {clause : Clause}
    {error : Error}
    (failed : clause.condition.visit facts follow = .error error)
    (rest : List Clause) :
    visitUntil facts follow settling (clause :: rest) = .error error := by
  obtain ⟨name, event, condition⟩ := clause
  rw [visitUntil, failed]
  rfl

/-- A clause that settles a group is the last one that is visited. -/
theorem visitUntil_of_settled
    {clause : Clause}
    {visit : Visit}
    (visited : clause.condition.visit facts follow = .ok visit)
    (settled : visit.verdict = settling)
    (rest : List Clause) :
    visitUntil facts follow settling (clause :: rest) = .ok [⟨clause, visit⟩] := by
  obtain ⟨name, event, condition⟩ := clause
  rw [visitUntil, visited]
  exact if_pos settled

/-- Visits go on behind a clause that does not settle the group. -/
theorem visitUntil_of_open
    {clause : Clause}
    {visit : Visit}
    (visited : clause.condition.visit facts follow = .ok visit)
    (isOpen : visit.verdict ≠ settling)
    (rest : List Clause) :
    visitUntil facts follow settling (clause :: rest) =
      (visitUntil facts follow settling rest).map (⟨clause, visit⟩ :: ·) := by
  obtain ⟨name, event, condition⟩ := clause
  rw [visitUntil, visited]
  refine (if_neg isOpen).trans ?_
  cases visitUntil facts follow settling rest with
  | error error => rfl
  | ok others => rfl

/-- A visited clause does not settle its group: the visit to its condition comes to
another verdict. -/
structure IsOpen (facts : Facts) (follow : String → Except Error Visit) (settling : Bool)
    (shown : ClauseVisit) : Prop where
  visited : shown.clause.condition.visit facts follow = .ok shown.visit
  isOpen : shown.visit.verdict ≠ settling

/-- Visits go on behind clauses that do not settle the group. -/
theorem visitUntil_append
    {before : List ClauseVisit}
    (areOpen : ∀ shown ∈ before, IsOpen facts follow settling shown)
    (rest : List Clause) :
    visitUntil facts follow settling (before.map ClauseVisit.clause ++ rest) =
      (visitUntil facts follow settling rest).map (before ++ ·) := by
  induction before with
  | nil =>
    rw [List.map_nil, List.nil_append]
    cases visitUntil facts follow settling rest <;> rfl
  | cons first before inductionHypothesis =>
    obtain ⟨firstOpen, restOpen⟩ := List.forall_mem_cons.1 areOpen
    obtain ⟨clause, visit⟩ := first
    rw [List.map_cons, List.cons_append, visitUntil_of_open firstOpen.visited firstOpen.isOpen,
      inductionHypothesis restOpen]
    cases visitUntil facts follow settling rest <;> rfl

/-- Either every clause is visited and none settles the group, or the visits end with the
first clause that does. -/
theorem visitUntil_cases
    {clauses : List Clause}
    {visits : List ClauseVisit}
    (visited : visitUntil facts follow settling clauses = .ok visits) :
    (visits.map ClauseVisit.clause = clauses ∧
      ∀ shown ∈ visits, IsOpen facts follow settling shown) ∨
    ∃ before last after,
      visits = before ++ [last] ∧
        clauses = before.map ClauseVisit.clause ++ last.clause :: after ∧
        (∀ shown ∈ before, IsOpen facts follow settling shown) ∧
        last.clause.condition.visit facts follow = .ok last.visit ∧
        last.visit.verdict = settling := by
  induction clauses generalizing visits with
  | nil =>
    obtain rfl : [] = visits := Except.ok.inj visited
    exact .inl ⟨rfl, nofun⟩
  | cons clause rest inductionHypothesis =>
    cases visitedFirst : clause.condition.visit facts follow with
    | error error => exact nomatch (visitUntil_of_error visitedFirst rest).symm.trans visited
    | ok visit =>
      by_cases settled : visit.verdict = settling
      · rw [visitUntil_of_settled visitedFirst settled] at visited
        obtain rfl : [⟨clause, visit⟩] = visits := Except.ok.inj visited
        exact .inr ⟨[], ⟨clause, visit⟩, rest, rfl, rfl, nofun, visitedFirst, settled⟩
      · rw [visitUntil_of_open visitedFirst settled] at visited
        obtain ⟨others, visitedRest, rfl⟩ := exists_of_map visited
        have firstOpen : IsOpen facts follow settling ⟨clause, visit⟩ := ⟨visitedFirst, settled⟩
        rcases inductionHypothesis visitedRest with ⟨rfl, areOpen⟩ | settles
        · exact .inl ⟨rfl, List.forall_mem_cons.2 ⟨firstOpen, areOpen⟩⟩
        · obtain ⟨before, last, after, rfl, rfl, areOpen, visitedLast, settled⟩ := settles
          exact .inr ⟨⟨clause, visit⟩ :: before, last, after, rfl, rfl,
            List.forall_mem_cons.2 ⟨firstOpen, areOpen⟩, visitedLast, settled⟩

/-- Clauses that are visited are those of the group, and their visits are to their
conditions. -/
theorem mem_of_visitUntil
    {clauses : List Clause}
    {visits : List ClauseVisit}
    (visited : visitUntil facts follow settling clauses = .ok visits)
    {shown : ClauseVisit}
    (member : shown ∈ visits) :
    shown.clause ∈ clauses ∧ shown.clause.condition.visit facts follow = .ok shown.visit := by
  rcases visitUntil_cases visited with ⟨rfl, areOpen⟩ | settles
  · exact ⟨List.mem_map_of_mem member, (areOpen shown member).visited⟩
  · obtain ⟨before, last, after, rfl, rfl, areOpen, visitedLast, _⟩ := settles
    rcases List.mem_append.1 member with isBefore | isLast
    · have isClause := List.mem_map_of_mem (f := ClauseVisit.clause) isBefore
      exact ⟨List.mem_append_left _ isClause, (areOpen shown isBefore).visited⟩
    · obtain rfl : shown = last := List.mem_singleton.1 isLast
      exact ⟨List.mem_append_right _ List.mem_cons_self, visitedLast⟩

end

end Condition

/-- What a name leads to, given what the rule of that name leads to. -/
def Registry.follow {α : Type} (registry : Registry) (ofRule : Rule → Except Error α)
    (name : String) : Except Error α :=
  match registry.get? name with
  | none => .error (.unknownRule name)
  | some rule => ofRule rule

namespace Executor

/-- Visits the condition of a rule at the end of a chain of references. -/
def visitFrom (executor : Executor) (chain : List String) (rule : Rule) : Except Error Visit :=
  if rule.name ∈ chain then
    .error (.circularReference (chain.dropWhile (· != rule.name) ++ [rule.name]))
  else if executor.maxDepth ≤ chain.length then
    .error (.depthExceeded (chain.length + 1) executor.maxDepth)
  else
    rule.condition.visit executor.facts
      (executor.registry.follow fun other => visitFrom executor (chain ++ [rule.name]) other)
termination_by executor.maxDepth - chain.length

/-- Visits the condition of a rule. -/
def visit (executor : Executor) (rule : Rule) : Except Error Visit :=
  executor.visitFrom [] rule

section

variable {executor : Executor} {chain : List String} {rule : Rule}

/-- A rule that is on the chain cannot be visited again. -/
theorem visitFrom_of_known
    (isKnown : rule.name ∈ chain) :
    executor.visitFrom chain rule =
      .error (.circularReference (chain.dropWhile (· != rule.name) ++ [rule.name])) := by
  rw [visitFrom]
  exact if_pos isKnown

/-- Behind a full chain no rule can be visited. -/
theorem visitFrom_of_full
    (isNew : rule.name ∉ chain)
    (full : executor.maxDepth ≤ chain.length) :
    executor.visitFrom chain rule =
      .error (.depthExceeded (chain.length + 1) executor.maxDepth) := by
  rw [visitFrom, if_neg isNew]
  exact if_pos full

/-- A rule is visited otherwise. -/
theorem visitFrom_of_room
    (isNew : rule.name ∉ chain)
    (room : ¬executor.maxDepth ≤ chain.length) :
    executor.visitFrom chain rule =
      rule.condition.visit executor.facts
        (executor.registry.follow (executor.visitFrom (chain ++ [rule.name]))) := by
  rw [visitFrom, if_neg isNew]
  exact if_neg room

end

/-- A rule that was visited was not on the chain, and the chain had room for it. -/
theorem room_of_visitFrom
    {executor : Executor}
    {chain : List String}
    {rule : Rule}
    {visit : Visit}
    (visited : executor.visitFrom chain rule = .ok visit) :
    rule.name ∉ chain ∧ ¬executor.maxDepth ≤ chain.length := by
  rw [visitFrom] at visited
  constructor
  · intro entered
    rw [if_pos entered] at visited
    cases visited
  · intro full
    rw [if_pos full] at visited
    split at visited <;> cases visited

/-- Where there is room for a rule, its condition is visited. -/
theorem visit_of_room
    {executor : Executor}
    (room : ¬executor.maxDepth ≤ 0)
    (rule : Rule) :
    executor.visit rule =
      rule.condition.visit executor.facts
        (executor.registry.follow (executor.visitFrom [rule.name])) := by
  rw [visit, visitFrom, if_neg List.not_mem_nil]
  exact if_neg room

/-- Where there is none, the visit fails for that. -/
theorem visit_of_full
    {executor : Executor}
    (full : executor.maxDepth ≤ 0)
    (rule : Rule) :
    executor.visit rule = .error (.depthExceeded 1 executor.maxDepth) :=
  visitFrom_of_full List.not_mem_nil full

end Executor

/-! ## The report of a visit -/

/-- The event that a rule gives out after a visit: the last one that a group put
in place of its own, if it holds, and its failure event otherwise. -/
def Rule.firedEvent (rule : Rule) (visit : Visit) : Event :=
  if visit.verdict then visit.overrides.getLast?.getD rule.event else rule.failureEvent

/-- What a visit to a rule shows, with a trace if it is wanted. -/
def Evaluation.ofVisit (rule : Rule) (isTraced : Bool) (visit : Visit) : Evaluation where
  rule := rule.name
  verdict := visit.verdict
  event := rule.firedEvent visit
  failedConditions := visit.failures
  dependencies := visit.asked.eraseDups
  trace := if isTraced then visit.trace rule.name else []

end Verdict
