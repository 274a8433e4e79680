import Verdict.Proofs.Outline
import Verdict.Proofs.Relevance

/-!
# Traces

A trace has a line for each condition that is visited, in the executed rule and in the rules
that are entered, in the order in which the visits are completed. Writing it has no influence on
anything else.

A visited condition is known by the steps that lead to it from the condition of the executed
rule, through references into other rules. The address in its line tells the steps since the
last rule that was entered, and as the texts of the steps can be read off an address, no two
conditions that are visited in one evaluation of a rule have the same one.
-/

namespace Verdict

namespace Step

/-- The index of a step among those that lead on from the same condition. -/
def index : Step → Nat
  | .all index => index
  | .any index => index
  | .not => 0
  | .enter _ => 0

/-- The address of what a step leads to from a condition of the given address. -/
def extend (address : String) : Step → String
  | .all index => Trace.clauseAddress address "all" index
  | .any index => Trace.clauseAddress address "any" index
  | .not => Trace.childAddress address
  | .enter rule => rule

/-- The address of what steps lead to from the condition of a rule. -/
def address (rule : String) (steps : List Step) : String :=
  steps.foldl extend rule

end Step

/-! ## Nodes of a visit -/

namespace Visit

/-- What was visited directly inside a visit, with the steps that lead to it. -/
def children : Visit → List (Step × Visit)
  | .leaf _ _ => []
  | .reference rule body => [(.enter rule, body)]
  | .not child => [(.not, child)]
  | .all clauses => clauses.zipIdx.map fun entry => (.all entry.2, entry.1.visit)
  | .any clauses => clauses.zipIdx.map fun entry => (.any entry.2, entry.1.visit)

/-- Induction on visits, with one hypothesis for whatever was visited directly inside. -/
theorem children_induction
    {motive : Visit → Prop}
    (ofChildren : ∀ visit,
      (∀ step child, (step, child) ∈ visit.children → motive child) → motive visit)
    (visit : Visit) :
    motive visit := by
  induction visit with
  | leaf => exact ofChildren _ nofun
  | reference rule body inductionHypothesis =>
    refine ofChildren _ fun step child isChild => ?_
    obtain ⟨rfl, rfl⟩ := Prod.mk.inj (List.mem_singleton.1 isChild)
    exact inductionHypothesis
  | not inner inductionHypothesis =>
    refine ofChildren _ fun step child isChild => ?_
    obtain ⟨rfl, rfl⟩ := Prod.mk.inj (List.mem_singleton.1 isChild)
    exact inductionHypothesis
  | all clauses inductionHypothesis | any clauses inductionHypothesis =>
    refine ofChildren _ fun step child isChild => ?_
    obtain ⟨entry, isEntry, same⟩ := List.mem_map.1 isChild
    obtain ⟨rfl, rfl⟩ := Prod.mk.inj same
    exact inductionHypothesis entry.1 (List.fst_mem_of_mem_zipIdx isEntry)

mutual

/-- Whatever was visited, with the steps that lead to it, inner visits before outer ones. -/
def nodes : Visit → List (List Step × Visit)
  | .leaf comparison matched => [([], .leaf comparison matched)]
  | .reference rule body =>
    body.nodes.map (Prod.map (.enter rule :: ·) id) ++ [([], .reference rule body)]
  | .not child => child.nodes.map (Prod.map (.not :: ·) id) ++ [([], .not child)]
  | .all clauses => clauseNodes .all 0 clauses ++ [([], .all clauses)]
  | .any clauses => clauseNodes .any 0 clauses ++ [([], .any clauses)]

/-- Whatever was visited inside clauses, the first of which has the given index. -/
def clauseNodes (stepTo : Nat → Step) (index : Nat) :
    List ClauseVisit → List (List Step × Visit)
  | [] => []
  | ⟨_, visit⟩ :: rest =>
    visit.nodes.map (Prod.map (stepTo index :: ·) id) ++ clauseNodes stepTo (index + 1) rest

end

theorem clauseNodes_eq_flatMap
    (stepTo : Nat → Step)
    (index : Nat)
    (clauses : List ClauseVisit) :
    clauseNodes stepTo index clauses =
      (clauses.zipIdx index).flatMap fun entry =>
        entry.1.visit.nodes.map (Prod.map (stepTo entry.2 :: ·) id) := by
  induction clauses generalizing index with
  | nil => rfl
  | cons shown rest inductionHypothesis =>
    obtain ⟨clause, visit⟩ := shown
    rw [clauseNodes, inductionHypothesis, List.zipIdx_cons, List.flatMap_cons]

/-- The nodes of a visit are those inside and then the visit itself. -/
theorem nodes_eq (visit : Visit) :
    visit.nodes =
      visit.children.flatMap (fun entry => entry.2.nodes.map (Prod.map (entry.1 :: ·) id)) ++
        [([], visit)] := by
  cases visit with
  | leaf => rfl
  | reference | not => rw [nodes, children, List.flatMap_singleton]
  | all clauses | any clauses => rw [nodes, children, clauseNodes_eq_flatMap, List.flatMap_map]

theorem clauseTrace_eq_flatMap
    (group word : String)
    (index : Nat)
    (clauses : List ClauseVisit) :
    clauseTrace group word index clauses =
      (clauses.zipIdx index).flatMap fun entry =>
        entry.1.visit.trace (Trace.clauseAddress group word entry.2) := by
  induction clauses generalizing index with
  | nil => rfl
  | cons shown rest inductionHypothesis =>
    obtain ⟨clause, visit⟩ := shown
    rw [clauseTrace, inductionHypothesis, List.zipIdx_cons, List.flatMap_cons]

/-- A trace has the lines of what was visited inside, and then that of the visit itself. -/
theorem trace_eq
    (address : String)
    (visit : Visit) :
    visit.trace address =
      visit.children.flatMap (fun entry => entry.2.trace (entry.1.extend address)) ++
        [Trace.line address visit.stepText] := by
  cases visit with
  | leaf => rfl
  | reference | not => rw [trace, children, List.flatMap_singleton]; rfl
  | all clauses | any clauses =>
    rw [trace, children, clauseTrace_eq_flatMap, List.flatMap_map]
    rfl

/-- A trace has one line for each node. -/
theorem trace_eq_map_nodes
    (address : String)
    (visit : Visit) :
    visit.trace address =
      visit.nodes.map fun node =>
        Trace.line (node.1.foldl Step.extend address) node.2.stepText := by
  induction visit using children_induction generalizing address with
  | ofChildren visit inductionHypothesis =>
    rw [trace_eq, nodes_eq, List.map_append, List.map_flatMap]
    refine congrArg (· ++ _) (List.flatMap_congr fun entry isChild => ?_)
    rw [inductionHypothesis entry.1 entry.2 isChild, List.map_map]
    rfl

/-- A node is the visit itself, or one inside. -/
theorem mem_nodes_iff
    {visit node : Visit}
    {steps : List Step} :
    (steps, node) ∈ visit.nodes ↔
      (steps = [] ∧ node = visit) ∨
        ∃ step child rest, steps = step :: rest ∧ (step, child) ∈ visit.children ∧
          (rest, node) ∈ child.nodes := by
  rw [nodes_eq, List.mem_append, or_comm, List.mem_singleton, Prod.mk.injEq, List.mem_flatMap]
  refine or_congr_right ⟨?_, ?_⟩
  · rintro ⟨⟨step, child⟩, isChild, inside⟩
    obtain ⟨⟨rest, node⟩, isNode, same⟩ := List.mem_map.1 inside
    obtain ⟨rfl, rfl⟩ := Prod.mk.inj same
    exact ⟨step, child, rest, rfl, isChild, isNode⟩
  · rintro ⟨step, child, rest, rfl, isChild, isNode⟩
    exact ⟨(step, child), isChild, List.mem_map_of_mem isNode⟩

theorem mem_nodes_of_mem_children
    {visit child node : Visit}
    {step : Step}
    {steps : List Step}
    (isChild : (step, child) ∈ visit.children)
    (isNode : (steps, node) ∈ child.nodes) :
    (step :: steps, node) ∈ visit.nodes :=
  mem_nodes_iff.2 (.inr ⟨step, child, steps, rfl, isChild, isNode⟩)

/-- Steps to what was visited directly inside are in order. -/
theorem pairwise_children (visit : Visit) :
    visit.children.Pairwise fun left right => left.1.index < right.1.index := by
  cases visit with
  | leaf => exact .nil
  | reference | not => exact List.pairwise_singleton _ _
  | all clauses | any clauses => exact List.pairwise_map.2 (pairwise_lt_zipIdx clauses)

/-- Nodes are in the order in which visits are completed. -/
theorem pairwise_nodes (visit : Visit) :
    visit.nodes.Pairwise fun left right =>
      Place.Before (left.1.map Step.index) (right.1.map Step.index) := by
  induction visit using children_induction with
  | ofChildren visit inductionHypothesis =>
    rw [nodes_eq]
    refine List.pairwise_append.2 ⟨?inside, List.pairwise_singleton _ _, ?itself⟩
    case inside =>
      refine List.pairwise_flatMap.2 ⟨?within, ?across⟩
      case within =>
        intro entry isChild
        rw [List.pairwise_map]
        exact (inductionHypothesis entry.1 entry.2 isChild).imp fun before => .inr ⟨rfl, before⟩
      case across =>
        refine visit.pairwise_children.imp fun less left isLeft right isRight => ?_
        obtain ⟨_, _, rfl⟩ := List.mem_map.1 isLeft
        obtain ⟨_, _, rfl⟩ := List.mem_map.1 isRight
        exact .inl less
    case itself =>
      intro inner isInner outer isOuter
      obtain rfl := List.mem_singleton.1 isOuter
      obtain ⟨entry, _, isNode⟩ := List.mem_flatMap.1 isInner
      obtain ⟨_, _, rfl⟩ := List.mem_map.1 isNode
      trivial

end Visit

/-! ## Nodes are what is visited -/

namespace Condition

variable {facts : Facts} {follow : String → Except Error Visit} {condition part : Condition}
  {visit child : Visit} {step : Step} {steps : List Step}

/-- What was visited directly inside is a part to which the condition leads, or the rule that it
names. -/
theorem cases_of_mem_children
    (visited : condition.visit facts follow = .ok visit)
    (isChild : (step, child) ∈ visit.children) :
    (∃ part, condition.LeadsTo (clauseVerdict facts follow) [step] part ∧
        part.visit facts follow = .ok child) ∨
      ∃ name, condition = .reference name ∧ step = .enter name ∧ follow name = .ok child := by
  cases condition with
  | leaf comparison =>
    obtain ⟨matched, _, rfl⟩ := exists_of_map visited
    exact nomatch isChild
  | reference name =>
    obtain ⟨body, followed, rfl⟩ := exists_of_map visited
    obtain ⟨rfl, rfl⟩ := Prod.mk.inj (List.mem_singleton.1 isChild)
    exact .inr ⟨name, rfl, rfl, followed⟩
  | not inner =>
    obtain ⟨body, visitedInner, rfl⟩ := exists_of_map visited
    obtain ⟨rfl, rfl⟩ := Prod.mk.inj (List.mem_singleton.1 isChild)
    exact .inl ⟨inner, .not .here, visitedInner⟩
  | all clauses =>
    obtain ⟨visits, _, rfl⟩ := exists_of_map visited
    obtain ⟨⟨shown, index⟩, isEntry, same⟩ := List.mem_map.1 isChild
    obtain ⟨rfl, rfl⟩ := Prod.mk.inj same
    have found : (Visit.all visits).clauses[index]? = some shown :=
      List.mem_zipIdx_iff_getElem?.1 isEntry
    have goesTo := (exists_getElem?_clauses_iff visited).1 ⟨shown, found, rfl⟩
    exact .inl ⟨_, .all goesTo .here, visit_of_getElem?_clauses visited found⟩
  | any clauses =>
    obtain ⟨visits, _, rfl⟩ := exists_of_map visited
    obtain ⟨⟨shown, index⟩, isEntry, same⟩ := List.mem_map.1 isChild
    obtain ⟨rfl, rfl⟩ := Prod.mk.inj same
    have found : (Visit.any visits).clauses[index]? = some shown :=
      List.mem_zipIdx_iff_getElem?.1 isEntry
    have goesTo := (exists_getElem?_clauses_iff visited).1 ⟨shown, found, rfl⟩
    exact .inl ⟨_, .any goesTo .here, visit_of_getElem?_clauses visited found⟩

/-- The nodes of a part to which a condition leads are nodes of the condition. -/
theorem mem_nodes_of_leadsTo
    (leads : condition.LeadsTo (clauseVerdict facts follow) steps part)
    (visited : condition.visit facts follow = .ok visit) :
    ∃ inner, part.visit facts follow = .ok inner ∧
      ∀ more node, (more, node) ∈ inner.nodes → (steps ++ more, node) ∈ visit.nodes := by
  induction leads generalizing visit with
  | here => exact ⟨visit, visited, fun _ _ => id⟩
  | not _ inductionHypothesis =>
    obtain ⟨child, visitedChild, rfl⟩ := exists_of_map visited
    obtain ⟨inner, visitedPart, inside⟩ := inductionHypothesis visitedChild
    refine ⟨inner, visitedPart, fun more node isNode => ?_⟩
    exact Visit.mem_nodes_of_mem_children List.mem_cons_self (inside more node isNode)
  | all goesTo _ inductionHypothesis | any goesTo _ inductionHypothesis =>
    obtain ⟨shown, found, rfl⟩ := (exists_getElem?_clauses_iff visited).2 goesTo
    obtain ⟨inner, visitedPart, inside⟩ :=
      inductionHypothesis (visit_of_getElem?_clauses visited found)
    obtain ⟨visits, _, rfl⟩ := exists_of_map visited
    refine ⟨inner, visitedPart, fun more node isNode => ?_⟩
    have isEntry := List.mk_mem_zipIdx_iff_getElem?.2 found
    exact Visit.mem_nodes_of_mem_children (List.mem_map_of_mem isEntry) (inside more node isNode)

end Condition

namespace Executor

variable {executor : Executor} {executed rule : Rule} {path own steps : List Step}
  {stack : List String} {visit node : Visit}

/-- A node inside a part of a rule that is entered is a visited part of some rule. -/
theorem exists_visits_of_mem_nodes
    {condition : Condition}
    (visits : executor.Visits executed path stack rule own condition)
    (visited : condition.visit executor.facts
      (executor.registry.follow (executor.visitFrom (stack ++ [rule.name]))) = .ok visit)
    (isNode : (steps, node) ∈ visit.nodes) :
    ∃ otherPath otherStack other otherOwn part,
      executor.Visits executed otherPath otherStack other otherOwn part ∧
        path ++ own ++ steps = otherPath ++ otherOwn := by
  induction visit using Visit.children_induction
    generalizing path stack rule own condition steps with
  | ofChildren visit inductionHypothesis =>
    rcases Visit.mem_nodes_iff.1 isNode with ⟨rfl, _⟩ | ⟨step, child, rest, rfl, isChild, inside⟩
    · exact ⟨path, stack, rule, own, condition, visits, List.append_nil _⟩
    · rcases Condition.cases_of_mem_children visited isChild with
        ⟨part, leads, visitedPart⟩ | ⟨name, rfl, rfl, followed⟩
      · have visitsPart : executor.Visits executed path stack rule (own ++ [step]) part :=
          ⟨visits.entered, visits.leads.trans leads⟩
        obtain ⟨otherPath, otherStack, other, otherOwn, last, visitsLast, same⟩ :=
          inductionHypothesis step child isChild visitsPart visitedPart inside
        exact ⟨otherPath, otherStack, other, otherOwn, last, visitsLast, by rw [← same]; simp⟩
      · obtain ⟨next, found, visitedNext⟩ := Registry.exists_of_follow followed
        obtain ⟨_, rfl⟩ := Registry.get?_eq_some_iff.1 found
        obtain ⟨isNew, room⟩ := room_of_visitFrom visitedNext
        have visitsNext := Visits.mk (visits.entered.next visits.leads found isNew room) .here
        rw [visitFrom_of_room isNew room] at visitedNext
        obtain ⟨otherPath, otherStack, other, otherOwn, last, visitsLast, same⟩ :=
          inductionHypothesis _ child isChild visitsNext visitedNext inside
        exact ⟨otherPath, otherStack, other, otherOwn, last, visitsLast, by rw [← same]; simp⟩

/-- The nodes of a rule that is entered are nodes of the executed one. -/
theorem mem_nodes_of_enters
    {root : Visit}
    (entered : executor.Enters executed path stack rule)
    (visited : executor.visit executed = .ok root) :
    ∃ inner, executor.visitFrom stack rule = .ok inner ∧
      ∀ more node, (more, node) ∈ inner.nodes → (path ++ more, node) ∈ root.nodes := by
  induction entered with
  | start => exact ⟨root, visited, fun _ _ => id⟩
  | @next _ _ _ _ other _ leads found _ _ inductionHypothesis =>
    obtain ⟨inner, visitedRule, inside⟩ := inductionHypothesis
    obtain ⟨isNew, room⟩ := room_of_visitFrom visitedRule
    rw [visitFrom_of_room isNew room] at visitedRule
    obtain ⟨reference, visitedReference, insideReference⟩ :=
      Condition.mem_nodes_of_leadsTo leads visitedRule
    obtain ⟨body, followed, rfl⟩ := exists_of_map visitedReference
    rw [Registry.follow_of_get? found] at followed
    refine ⟨body, followed, fun more node isNode => ?_⟩
    have isChild : (.enter other.name, body) ∈ (Visit.reference other.name body).children :=
      List.mem_cons_self
    have isInside := Visit.mem_nodes_of_mem_children isChild isNode
    have isListed := inside _ node (insideReference _ node isInside)
    rwa [List.append_assoc, List.append_assoc]

/-- The nodes of the visit to a rule are what its execution gets to. -/
theorem mem_nodes_iff_visits
    {root : Visit}
    (visited : executor.visit executed = .ok root) :
    steps ∈ root.nodes.map Prod.fst ↔
      ∃ path stack rule own part,
        executor.Visits executed path stack rule own part ∧ steps = path ++ own := by
  constructor
  · intro listed
    obtain ⟨⟨steps, node⟩, isNode, rfl⟩ := List.mem_map.1 listed
    have room := (room_of_visitFrom visited).2
    rw [visit_of_room room] at visited
    exact exists_visits_of_mem_nodes ⟨.start room, .here⟩ visited isNode
  · rintro ⟨path, stack, rule, own, part, ⟨entered, leads⟩, rfl⟩
    obtain ⟨inner, visitedRule, inside⟩ := mem_nodes_of_enters entered visited
    obtain ⟨isNew, room⟩ := room_of_visitFrom visitedRule
    rw [visitFrom_of_room isNew room] at visitedRule
    obtain ⟨reached, _, insideRule⟩ := Condition.mem_nodes_of_leadsTo leads visitedRule
    have isNode : ([], reached) ∈ reached.nodes := Visit.mem_nodes_iff.2 (.inl ⟨rfl, rfl⟩)
    have isListed := inside _ reached (insideRule [] reached isNode)
    rw [List.append_nil] at isListed
    exact List.mem_map_of_mem isListed

end Executor

/-! ## Addresses -/

namespace Step

/-- What a step inside a rule adds to an address. -/
def letters : Step → List Char
  | .all index => ['.', 'a', 'l', 'l', '['] ++ (Nat.toDigits 10 index ++ [']'])
  | .any index => ['.', 'a', 'n', 'y', '['] ++ (Nat.toDigits 10 index ++ [']'])
  | .not => ['.', 'n', 'o', 't']
  | .enter _ => []

theorem toList_extend
    {step : Step}
    (isInside : step.StaysInside)
    (address : String) :
    (step.extend address).toList = address.toList ++ step.letters := by
  cases step with
  | all index | any index =>
    simp [extend, letters, Trace.clauseAddress, Nat.toString_eq_repr, Nat.toList_repr]
  | not => simp [extend, letters, Trace.childAddress]
  | enter rule => exact absurd rfl (isInside rule)

theorem letters_ne_nil
    {step : Step}
    (isInside : step.StaysInside) :
    step.letters ≠ [] := by
  cases step with
  | enter rule => exact absurd rfl (isInside rule)
  | all | any | not => simp [letters]

/-- Steps inside a rule add their letters to its name. -/
theorem toList_address
    {steps : List Step}
    (areInside : ∀ step ∈ steps, step.StaysInside)
    (name : String) :
    (address name steps).toList = name.toList ++ steps.flatMap letters := by
  induction steps generalizing name with
  | nil => simp [address]
  | cons step steps inductionHypothesis =>
    obtain ⟨isInside, restInside⟩ := List.forall_mem_cons.1 areInside
    have rest := inductionHypothesis restInside (step.extend name)
    rw [address, List.foldl_cons, ← address, rest, toList_extend isInside, List.flatMap_cons,
      List.append_assoc]

/-- An index can be read off its digits, which end with the bracket. -/
theorem eq_of_toDigits_append
    {index other : Nat}
    {rest otherRest : List Char}
    (same : Nat.toDigits 10 index ++ ']' :: rest = Nat.toDigits 10 other ++ ']' :: otherRest) :
    index = other ∧ rest = otherRest := by
  have takeDigits : ∀ (index : Nat) (rest : List Char),
      (Nat.toDigits 10 index ++ ']' :: rest).takeWhile Char.isDigit = Nat.toDigits 10 index := by
    intro index rest
    have areDigits : ∀ char ∈ Nat.toDigits 10 index, char.isDigit = true := fun char member =>
      Nat.isDigit_of_mem_toDigits (by decide) (by decide) member
    rw [List.takeWhile_append_of_pos areDigits, List.takeWhile_cons_of_neg (by decide),
      List.append_nil]
  have sameDigits : Nat.toDigits 10 index = Nat.toDigits 10 other := by
    rw [← takeDigits index rest, same, takeDigits]
  have sameIndex := congrArg (Nat.ofDigitChars 10 · 0) sameDigits
  simp only [Nat.ofDigitChars_ten_toDigits] at sameIndex
  rw [sameDigits] at same
  exact ⟨sameIndex, (List.cons.inj (List.append_cancel_left same)).2⟩

/-- A step inside a rule can be read off an address. -/
theorem eq_of_letters_append
    {step other : Step}
    {rest otherRest : List Char}
    (isInside : step.StaysInside)
    (isInsideToo : other.StaysInside)
    (same : step.letters ++ rest = other.letters ++ otherRest) :
    step = other ∧ rest = otherRest := by
  cases step with
  | enter rule => exact absurd rfl (isInside rule)
  | not =>
    cases other with
    | enter rule => exact absurd rfl (isInsideToo rule)
    | not => exact ⟨rfl, List.append_cancel_left same⟩
    | all | any => simp [letters] at same
  | all index =>
    cases other with
    | enter rule => exact absurd rfl (isInsideToo rule)
    | not | any => simp [letters] at same
    | all other =>
      have sameDigits := eq_of_toDigits_append (by simpa [letters] using same)
      exact ⟨congrArg _ sameDigits.1, sameDigits.2⟩
  | any index =>
    cases other with
    | enter rule => exact absurd rfl (isInsideToo rule)
    | not | all => simp [letters] at same
    | any other =>
      have sameDigits := eq_of_toDigits_append (by simpa [letters] using same)
      exact ⟨congrArg _ sameDigits.1, sameDigits.2⟩

/-- Steps inside a rule can be read off an address, one after the other. -/
theorem eq_of_flatMap_letters
    {steps others : List Step}
    (areInside : ∀ step ∈ steps, step.StaysInside)
    (areInsideToo : ∀ other ∈ others, other.StaysInside)
    (same : steps.flatMap letters = others.flatMap letters) :
    steps = others := by
  induction steps generalizing others with
  | nil =>
    cases others with
    | nil => rfl
    | cons other others =>
      rw [List.flatMap_cons] at same
      have isEmpty := (List.append_eq_nil_iff.1 same.symm).1
      exact absurd isEmpty (letters_ne_nil (areInsideToo other List.mem_cons_self))
  | cons step steps inductionHypothesis =>
    obtain ⟨isInside, restInside⟩ := List.forall_mem_cons.1 areInside
    cases others with
    | nil =>
      rw [List.flatMap_cons] at same
      exact absurd (List.append_eq_nil_iff.1 same).1 (letters_ne_nil isInside)
    | cons other others =>
      obtain ⟨isInsideToo, restInsideToo⟩ := List.forall_mem_cons.1 areInsideToo
      rw [List.flatMap_cons, List.flatMap_cons] at same
      obtain ⟨rfl, sameRest⟩ := eq_of_letters_append isInside isInsideToo same
      rw [inductionHypothesis restInside restInsideToo sameRest]

/-- Steps inside a rule lead to different addresses. -/
theorem eq_of_address
    {name : String}
    {steps others : List Step}
    (areInside : ∀ step ∈ steps, step.StaysInside)
    (areInsideToo : ∀ other ∈ others, other.StaysInside)
    (same : address name steps = address name others) :
    steps = others := by
  have sameLetters := congrArg String.toList same
  rw [toList_address areInside, toList_address areInsideToo] at sameLetters
  exact eq_of_flatMap_letters areInside areInsideToo (List.append_cancel_left sameLetters)

end Step

/-! ## Traced executions -/

namespace Executor

variable {executor : Executor} {executed rule : Rule} {path : List Step} {stack : List String}

/-- A rule is visited in the same way with and without a trace. -/
theorem visitFrom_isTraced
    (executor : Executor)
    (isTraced : Bool)
    (stack : List String)
    (rule : Rule) :
    { executor with isTraced }.visitFrom stack rule = executor.visitFrom stack rule := by
  induction stack, rule using visitFrom.induct executor with
  | case1 stack rule isKnown => rw [visitFrom_of_known isKnown, visitFrom_of_known isKnown]
  | case2 stack rule isNew full =>
    have otherFull : { executor with isTraced }.maxDepth ≤ stack.length := full
    rw [visitFrom_of_full isNew full, visitFrom_of_full isNew otherFull]
  | case3 stack rule isNew room inductionHypothesis =>
    have otherRoom : ¬{ executor with isTraced }.maxDepth ≤ stack.length := room
    rw [visitFrom_of_room isNew room, visitFrom_of_room isNew otherRoom]
    have sameRules := funext inductionHypothesis
    exact congrArg
      (fun visitRule => rule.condition.visit executor.facts (executor.registry.follow visitRule))
      sameRules

/-- A path leads to the address of the rule that it enters. -/
theorem Enters.address_eq (entered : executor.Enters executed path stack rule) :
    Step.address executed.name path = rule.name := by
  cases entered with
  | start => rfl
  | next => rw [Step.address, List.foldl_append]; rfl

/-- The lines of a trace, each with the steps that lead to its condition: there is exactly one
for each visited part of the executed rule and of the rules that are entered, and they are in
the order in which the visits are completed. -/
structure Traces (executor : Executor) (executed : Rule) (lines : List (List Step × String)) :
    Prop where
  visited : ∀ steps, steps ∈ lines.map Prod.fst ↔
    ∃ path stack rule own part,
      executor.Visits executed path stack rule own part ∧ steps = path ++ own
  once : (lines.map Prod.fst).Nodup
  ordered : (lines.map fun line => line.1.map Step.index).Pairwise Place.Before

/-- The trace of a visit to a rule has a line for each part that the execution gets to. -/
theorem traces_of_visit
    {visit : Visit}
    (visited : executor.visit executed = .ok visit) :
    executor.Traces executed (visit.nodes.map (Prod.map id Visit.stepText)) := by
  have ordered := List.pairwise_map.2 visit.pairwise_nodes
  constructor
  case visited =>
    intro steps
    rw [List.map_map]
    exact mem_nodes_iff_visits visited
  case ordered =>
    rw [List.map_map]
    exact ordered
  case once =>
    have distinct := Place.nodup_of_pairwise_before ordered
    rw [List.map_map]
    exact List.Nodup.of_map (List.map Step.index) (by rwa [List.map_map])

/-- Tracing only observes. Without a trace, an execution comes to the same error or to the same
evaluation with an empty trace. A trace has exactly one line for each condition that is visited,
in the order in which the visits are completed, and the line begins with the address of the
condition. Inside a rule that is entered, addresses begin with the name of the rule, and no two
visited conditions have the same one. -/
theorem execute_traced
    (executor : Executor)
    (executed : Rule) :
    { executor with isTraced := false }.execute executed =
      ({ executor with isTraced := true }.execute executed).map Evaluation.withoutTrace ∧
    (∀ evaluation, { executor with isTraced := true }.execute executed = .ok evaluation →
      ∃ lines, executor.Traces executed lines ∧
        evaluation.trace = lines.map fun line =>
          Step.address executed.name line.1 ++ ": " ++ line.2) ∧
    ∀ path stack rule, executor.Enters executed path stack rule →
      (∀ own, Step.address executed.name (path ++ own) = Step.address rule.name own) ∧
      ∀ own other part otherPart,
        executor.Visits executed path stack rule own part →
        executor.Visits executed path stack rule other otherPart →
          Step.address rule.name own = Step.address rule.name other → own = other := by
  have sameVisit : ∀ isTraced,
      { executor with isTraced }.visit executed = executor.visit executed := fun isTraced =>
    executor.visitFrom_isTraced isTraced [] executed
  refine ⟨?untraced, ?traced, fun path stack rule entered => ⟨?own, ?distinct⟩⟩
  case untraced =>
    rw [execute_eq_visit, execute_eq_visit, sameVisit false, sameVisit true, map_map]
    rfl
  case traced =>
    intro evaluation ran
    rw [execute_eq_visit, sameVisit true] at ran
    obtain ⟨visit, visited, rfl⟩ := exists_of_map ran
    refine ⟨_, traces_of_visit visited, ?_⟩
    rw [List.map_map]
    exact visit.trace_eq_map_nodes executed.name
  case own =>
    intro own
    rw [Step.address, List.foldl_append]
    exact congrArg (own.foldl Step.extend) entered.address_eq
  case distinct =>
    intro own other part otherPart visits visitsOther same
    exact Step.eq_of_address visits.leads.stayInside visitsOther.leads.stayInside same

example : ({ askedAndBystander with isTraced := true }.execute asking).map Evaluation.trace =
    .ok [
      "asked: count equal null => MATCHED",
      "asking.not: 规则 asked => MATCHED",
      "asking: NOT => NOT_MATCHED"] := rfl

end Executor
end Verdict
