import Verdict.Proofs.Execution
import Verdict.Proofs.Occurrence

/-!
# Three-valued truth

A condition has a truth value that does not depend on the order in which its parts
are evaluated. It is unknown where an evaluation of the part would fail, and the
connectives are those of strong Kleene logic, so that an unknown part matters only
if no other part settles the group.

An execution that succeeds finds the truth value, and where there is none it
fails. As the value does not depend on the order of clauses, neither does the
verdict of executions that succeed.
-/

namespace Verdict

/-- The strong Kleene value of a group that one of two values settles: all of several
must hold if the false value settles it, and any must if the true value does. -/
def Kleene.group (settling : Bool) (values : List (Option Bool)) : Option Bool :=
  if some settling ∈ values then some settling
  else if none ∈ values then none
  else some !settling

namespace Kleene

variable {settling : Bool} {values others : List (Option Bool)}

theorem group_of_mem (settled : some settling ∈ values) : group settling values = some settling :=
  if_pos settled

/-- A part that does not settle a group, and is known, makes no difference to it. -/
theorem group_cons_open :
    group settling ((some !settling) :: values) = group settling values := by
  have different : some settling ≠ some !settling := by
    cases settling <;> exact nofun
  have settles : some settling ∈ (some !settling) :: values ↔ some settling ∈ values := by
    rw [List.mem_cons, or_iff_right different]
  have unknown : none ∈ (some !settling) :: values ↔ none ∈ values := by
    rw [List.mem_cons, or_iff_right nofun]
  simp only [group, settles, unknown]

/-- The value of a group does not depend on the order of its parts. -/
theorem group_perm (permuted : values.Perm others) :
    group settling values = group settling others := by
  simp only [group, permuted.mem_iff]

end Kleene

/-! ## Truth values of conditions -/

/-- The truth value of a leaf, which has none if there is no such operator, no such
path in the fact, or no answer for the operands. -/
def Leaf.truth (facts : Facts) (leaf : Leaf) : Option Bool := do
  let operator ← Operator.ofName? leaf.operator
  let fact ← (facts.get leaf.fact leaf.path).toOption
  (operator.evaluate fact leaf.value).toOption

/-- A leaf has a truth value exactly when it can be compared. -/
theorem Leaf.truth_eq
    (facts : Facts)
    (leaf : Leaf) :
    leaf.truth facts = (leaf.matches? facts).toOption := by
  rw [truth, matches?, operator?]
  cases Operator.ofName? leaf.operator with
  | none => rfl
  | some operator =>
    cases facts.get leaf.fact leaf.path with
    | error error => rfl
    | ok fact =>
      rfl

namespace Condition

mutual

/-- The truth value of a condition, given those of the rules of all names. -/
def truth (facts : Facts) (ofRule : String → Option Bool) : Condition → Option Bool
  | .all clauses => Kleene.group false (truths facts ofRule clauses)
  | .any clauses => Kleene.group true (truths facts ofRule clauses)
  | .not child => (truth facts ofRule child).map (!·)
  | .reference name => ofRule name
  | .leaf comparison => comparison.truth facts

/-- The truth values of the conditions of clauses. -/
def truths (facts : Facts) (ofRule : String → Option Bool) : List Clause → List (Option Bool)
  | [] => []
  | ⟨_, _, condition⟩ :: rest => truth facts ofRule condition :: truths facts ofRule rest

end

theorem truths_eq_map
    (facts : Facts)
    (ofRule : String → Option Bool)
    (clauses : List Clause) :
    truths facts ofRule clauses = clauses.map fun clause => clause.condition.truth facts ofRule := by
  induction clauses with
  | nil => rfl
  | cons clause rest inductionHypothesis =>
    obtain ⟨name, event, condition⟩ := clause
    rw [truths, inductionHypothesis]
    rfl

end Condition

/-- The truth value of a condition of the last rule on a chain of references. A name
has none if it is not registered, if it is on the chain, or if the chain is as
long as it may be. -/
def Executor.truth (executor : Executor) (chain : List String) (condition : Condition) :
    Option Bool :=
  condition.truth executor.facts fun name =>
    match executor.registry.get? name with
    | none => none
    | some rule =>
      if name ∈ chain then none
      else if executor.maxDepth ≤ chain.length then none
      else executor.truth (chain ++ [name]) rule.condition
termination_by executor.maxDepth - chain.length

/-- All parts of a condition of the last rule on a chain have truth values: all leaves
that it compares, and all parts of the conditions of rules that it mentions. -/
def Executor.Known (executor : Executor) (chain : List String) (condition : Condition) : Prop :=
  (∀ comparison, condition.Compares comparison → comparison.truth executor.facts ≠ none) ∧
  ∀ name, condition.Mentions name →
    name ∉ chain ∧ ∃ _ : chain.length < executor.maxDepth, ∃ rule,
      executor.registry.get? name = some rule ∧
        executor.Known (chain ++ [name]) rule.condition
termination_by executor.maxDepth - chain.length

/-! ## What an execution finds -/

namespace Condition

variable {facts : Facts} {follow : String → Except Error Visit} {ofRule : String → Option Bool}

/-- The clauses that are visited before a group is settled give its value, whatever
the values of the other clauses are. -/
theorem group_truths_of_visitUntil
    {settling : Bool}
    {clauses : List Clause}
    (truthful : ∀ clause ∈ clauses, ∀ visit, clause.condition.visit facts follow = .ok visit →
      clause.condition.truth facts ofRule = some visit.verdict)
    {visits : List ClauseVisit}
    (visited : visitUntil facts follow settling clauses = .ok visits) :
    Kleene.group settling (truths facts ofRule clauses) =
      some (bif visits.any (·.visit.verdict == settling) then settling else !settling) := by
  -- a clause that leaves the group open also leaves its value to the rest
  induction clauses generalizing visits with
  | nil =>
    have nothing : [] = visits := Except.ok.inj visited
    rw [← nothing]
    rfl
  | cons clause rest inductionHypothesis =>
    obtain ⟨truthfulFirst, truthfulRest⟩ := List.forall_mem_cons.1 truthful
    rw [truths_eq_map, List.map_cons, ← truths_eq_map]
    cases visitedFirst : clause.condition.visit facts follow with
    | error error =>
      rw [visitUntil_of_error visitedFirst] at visited
      exact nomatch visited
    | ok visit =>
      rw [truthfulFirst visit visitedFirst]
      by_cases settled : visit.verdict = settling
      · rw [visitUntil_of_settled visitedFirst settled] at visited
        rw [← Except.ok.inj visited, settled, Kleene.group_of_mem List.mem_cons_self]
        simp [settled]
      · rw [visitUntil_of_open visitedFirst settled] at visited
        obtain ⟨others, visitedRest, rfl⟩ := exists_of_map visited
        have isOpen : visit.verdict = !settling := Bool.eq_not.2 settled
        rw [isOpen, Kleene.group_cons_open, inductionHypothesis truthfulRest visitedRest]
        simp [isOpen]

/-- A visit that succeeds has the truth value of its condition. -/
theorem truth_of_visit
    (followed : ∀ name body, follow name = .ok body → ofRule name = some body.verdict)
    {condition : Condition}
    {visit : Visit}
    (visited : condition.visit facts follow = .ok visit) :
    condition.truth facts ofRule = some visit.verdict := by
  induction condition generalizing visit with
  | leaf comparison =>
    obtain ⟨matched, compared, rfl⟩ := exists_of_map visited
    rw [truth, Leaf.truth_eq, compared]
    rfl
  | reference name =>
    obtain ⟨body, visitedBody, rfl⟩ := exists_of_map visited
    exact followed name body visitedBody
  | not child inductionHypothesis =>
    obtain ⟨inner, visitedInner, rfl⟩ := exists_of_map visited
    rw [truth, inductionHypothesis visitedInner]
    rfl
  | all clauses inductionHypothesis =>
    obtain ⟨visits, visitedClauses, rfl⟩ := exists_of_map visited
    have value := group_truths_of_visitUntil
      (fun clause member _ => inductionHypothesis clause member) visitedClauses
    rw [truth, value, Visit.verdict, Visit.allHold_eq_all, List.all_eq_not_any_not]
    simp
  | any clauses inductionHypothesis =>
    obtain ⟨visits, visitedClauses, rfl⟩ := exists_of_map visited
    have value := group_truths_of_visitUntil
      (fun clause member _ => inductionHypothesis clause member) visitedClauses
    rw [truth, value, Visit.verdict, Visit.anyHolds_eq_any]
    simp

end Condition

namespace Executor

variable {executor : Executor}

/-- A visit that succeeds has the truth value that its condition has on the chain. -/
theorem truth_of_visitFrom
    {chain : List String}
    {rule : Rule}
    {visit : Visit}
    (visited : executor.visitFrom chain rule = .ok visit) :
    executor.truth (chain ++ [rule.name]) rule.condition = some visit.verdict := by
  induction chain, rule using visitFrom.induct executor generalizing visit with
  | case1 chain rule entered => exact absurd entered (room_of_visitFrom visited).1
  | case2 chain rule fresh full => exact absurd full (room_of_visitFrom visited).2
  | case3 chain rule fresh full inductionHypothesis =>
    rw [visitFrom, if_neg fresh, if_neg full] at visited
    rw [truth]
    refine Condition.truth_of_visit ?_ visited
    intro name body followed
    rw [Registry.follow] at followed
    cases found : executor.registry.get? name with
    | none =>
      rw [found] at followed
      cases followed
    | some other =>
      rw [found] at followed
      obtain ⟨_, rfl⟩ := Registry.get?_eq_some_iff.1 found
      obtain ⟨notOnChain, notFull⟩ := room_of_visitFrom followed
      change (if other.name ∈ chain ++ [rule.name] then none
        else if executor.maxDepth ≤ (chain ++ [rule.name]).length then none
        else executor.truth (chain ++ [rule.name] ++ [other.name]) other.condition) = _
      rw [if_neg notOnChain, if_neg notFull]
      exact inductionHypothesis other followed

/-- An execution that succeeds has the truth value of the condition of its rule. -/
theorem truth_of_execute
    {rule : Rule}
    {evaluation : Evaluation}
    (executed : executor.execute rule = .ok evaluation) :
    executor.truth [rule.name] rule.condition = some evaluation.verdict := by
  rw [execute_eq_visit] at executed
  obtain ⟨visit, visited, rfl⟩ := exists_of_map executed
  exact truth_of_visitFrom visited

/-- A rule may be visited when all parts of its condition have truth values. -/
theorem exists_visitFrom
    {chain : List String}
    {rule : Rule}
    (fresh : rule.name ∉ chain)
    (room : chain.length < executor.maxDepth)
    (known : executor.Known (chain ++ [rule.name]) rule.condition) :
    ∃ visit, executor.visitFrom chain rule = .ok visit := by
  induction chain, rule using visitFrom.induct executor with
  | case1 chain rule entered => exact absurd entered fresh
  | case2 chain rule _ full => exact absurd room (Nat.not_lt.2 full)
  | case3 chain rule _ notFull inductionHypothesis =>
    rw [Known] at known
    obtain ⟨compared, asked⟩ := known
    rw [visitFrom, if_neg fresh, if_neg notFull]
    cases visited : rule.condition.visit executor.facts
        (executor.registry.follow fun other => executor.visitFrom (chain ++ [rule.name]) other) with
    | ok visit => exact ⟨visit, rfl⟩
    | error error =>
      rcases Condition.error_of_visit visited with ⟨comparison, compares, failed⟩ | inReference
      · have unknown : comparison.truth executor.facts = none := by
          rw [Leaf.truth_eq, failed]
          rfl
        exact absurd unknown (compared comparison compares)
      · obtain ⟨name, mentions, failed⟩ := inReference
        obtain ⟨notOnChain, hasRoom, other, found, otherKnown⟩ := asked name mentions
        rw [Registry.follow, found] at failed
        obtain ⟨_, rfl⟩ := Registry.get?_eq_some_iff.1 found
        obtain ⟨body, visitedBody⟩ := inductionHypothesis other notOnChain hasRoom otherKnown
        cases failed.symm.trans visitedBody

end Executor

/-! ## The order of clauses -/

namespace Condition

/-- Two conditions differ only in the order of the clauses of groups, at any depth. -/
inductive Reordered : Condition → Condition → Prop
  | refl (condition : Condition) : Reordered condition condition
  | trans
      {first second third : Condition} :
      Reordered first second → Reordered second third → Reordered first third
  | not
      {child other : Condition} :
      Reordered child other → Reordered (.not child) (.not other)
  | all
      {clauses others : List Clause} :
      clauses.Perm others → Reordered (.all clauses) (.all others)
  | any
      {clauses others : List Clause} :
      clauses.Perm others → Reordered (.any clauses) (.any others)
  | insideAll
      (before after : List Clause)
      (name : Option String)
      (event : Option Event)
      {child other : Condition} :
      Reordered child other →
        Reordered
          (.all (before ++ ⟨name, event, child⟩ :: after))
          (.all (before ++ ⟨name, event, other⟩ :: after))
  | insideAny
      (before after : List Clause)
      (name : Option String)
      (event : Option Event)
      {child other : Condition} :
      Reordered child other →
        Reordered
          (.any (before ++ ⟨name, event, child⟩ :: after))
          (.any (before ++ ⟨name, event, other⟩ :: after))

/-- The order of clauses makes no difference to truth values, given those of all names. -/
theorem Reordered.truth_eq
    {condition other : Condition}
    (reordered : condition.Reordered other)
    (facts : Facts)
    (ofRule : String → Option Bool) :
    condition.truth facts ofRule = other.truth facts ofRule := by
  induction reordered with
  | refl => rfl
  | trans _ _ firstHypothesis secondHypothesis =>
    exact firstHypothesis.trans secondHypothesis
  | not _ inductionHypothesis => rw [truth, truth, inductionHypothesis]
  | all permuted | any permuted =>
    rw [truth, truth, truths_eq_map, truths_eq_map]
    exact Kleene.group_perm (permuted.map _)
  | insideAll before after name event _ inductionHypothesis
  | insideAny before after name event _ inductionHypothesis =>
    rw [truth, truth, truths_eq_map, truths_eq_map]
    simp only [List.map_append, List.map_cons, inductionHypothesis]

end Condition

/-- Two rules differ only in the order of the clauses of groups. -/
structure Rule.Reordered (rule other : Rule) : Prop where
  name : other.name = rule.name
  event : other.event = rule.event
  failureEvent : other.failureEvent = rule.failureEvent
  condition : rule.condition.Reordered other.condition

/-- Two registries have the same names, and each name has the same rule in both up to
the order of the clauses of groups. -/
def Registry.Reordered (registry other : Registry) : Prop :=
  ∀ name, Option.Rel Rule.Reordered (registry.get? name) (other.get? name)

namespace Executor

/-- Truth values stay the same when clauses change their order in any rule. -/
theorem truth_reordered
    (executor : Executor)
    {registry : Registry}
    (rules : executor.registry.Reordered registry)
    (chain : List String)
    {condition other : Condition}
    (reordered : condition.Reordered other) :
    { executor with registry }.truth chain other = executor.truth chain condition := by
  induction chain, condition using truth.induct executor generalizing other with
  | case1 chain condition inductionHypothesis =>
    rw [truth, truth, ← reordered.truth_eq]
    congr 1
    funext name
    have related := rules name
    cases found : executor.registry.get? name with
    | none =>
      rw [found] at related
      cases foundOther : registry.get? name with
      | none => rfl
      | some otherRule =>
        rw [foundOther] at related
        exact nomatch related
    | some rule =>
      rw [found] at related
      cases foundOther : registry.get? name with
      | none =>
        rw [foundOther] at related
        exact nomatch related
      | some otherRule =>
        rw [foundOther] at related
        obtain ⟨same⟩ := related
        simp only
        split
        · rfl
        · split
          · rfl
          · rename_i notFull
            exact inductionHypothesis name rule notFull same.condition

/-- An execution that succeeds finds the strong Kleene value of the condition, and an
execution without such a value fails. So executions that succeed agree when the
clauses of groups are in another order, in the rule and in all rules it asks. An
execution does succeed if all parts of the condition have truth values. -/
theorem execute_kleene
    (executor : Executor)
    (rule : Rule) :
    (∀ evaluation, executor.execute rule = .ok evaluation →
      executor.truth [rule.name] rule.condition = some evaluation.verdict) ∧
    (executor.truth [rule.name] rule.condition = none →
      ∃ error, executor.execute rule = .error error) ∧
    (∀ (registry : Registry) (other : Rule) (evaluation changed : Evaluation),
      executor.registry.Reordered registry →
      rule.Reordered other →
      executor.execute rule = .ok evaluation →
      { executor with registry }.execute other = .ok changed →
      changed.verdict = evaluation.verdict) ∧
    (0 < executor.maxDepth →
      executor.Known [rule.name] rule.condition →
      ∃ evaluation, executor.execute rule = .ok evaluation) := by
  refine ⟨fun _ executed => truth_of_execute executed, ?unknown, ?reordered, ?succeeds⟩
  case unknown =>
    intro unknown
    cases executed : executor.execute rule with
    | error error => exact ⟨error, rfl⟩
    | ok evaluation => exact nomatch unknown.symm.trans (truth_of_execute executed)
  case reordered =>
    intro registry other evaluation changed rules reordered executed executedOther
    have value := truth_of_execute executed
    have otherValue := truth_of_execute executedOther
    rw [reordered.name, truth_reordered executor rules _ reordered.condition, value] at otherValue
    exact (Option.some.inj otherValue).symm
  case succeeds =>
    intro room known
    obtain ⟨visit, visited⟩ := exists_visitFrom List.not_mem_nil room known
    rw [execute_eq_visit, Executor.visit, visited]
    exact ⟨_, rfl⟩

end Executor

end Verdict
