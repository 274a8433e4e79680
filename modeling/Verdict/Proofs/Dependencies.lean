import Verdict.Proofs.Tracing

/-!
# Dependencies

The dependencies of an evaluation are the rules that the executed rule asked itself. Their names
are noted when references are visited, each at the first one that has it.

So they are in the order of these first visits, which need not be the order of the names in the
condition: a reference that was skipped may be followed by one of the same name that was not. But
as visits go through a condition from left to right, they are part of the list of all references,
in its order. What the rules that were asked ask in turn is not among them.
-/

namespace Verdict

/-! ## Names that are noted once -/

namespace Progress

/-- Of entries with a place and a name each, the names are listed once, in the order of their
first places. -/
structure ListsFirst {Position : Type} (before : Position → Position → Prop)
    (entries : List (Position × String)) (names : List String) : Prop where
  distinct : names.Nodup
  listed : ∀ name, name ∈ names ↔ ∃ place, (place, name) ∈ entries
  ordered : names.Pairwise fun earlier later =>
    ∃ first, (first, earlier) ∈ entries ∧ ∀ place, (place, later) ∈ entries → before first place

variable {Position : Type} {before : Position → Position → Prop}
  {entries : List (Position × String)} {names : List String}

/-- Noting the name of a further entry keeps the list right. -/
theorem ListsFirst.note
    (lists : ListsFirst before entries names)
    {place : Position}
    (isLast : ∀ entry ∈ entries, before entry.1 place)
    (name : String) :
    ListsFirst before (entries ++ [(place, name)]) (noted names name) := by
  have mem_iff : ∀ other otherName, (other, otherName) ∈ entries ++ [(place, name)] ↔
      (other, otherName) ∈ entries ∨ other = place ∧ otherName = name := by
    intro other otherName
    rw [List.mem_append, List.mem_singleton, Prod.mk.injEq]
  have stillOrdered : names.Pairwise fun earlier later =>
      ∃ first, (first, earlier) ∈ entries ++ [(place, name)] ∧
        ∀ other, (other, later) ∈ entries ++ [(place, name)] → before first other := by
    refine lists.ordered.imp ?_
    rintro earlier later ⟨first, isEntry, isFirst⟩
    refine ⟨first, List.mem_append_left _ isEntry, fun other isOther => ?_⟩
    rcases (mem_iff other later).1 isOther with isOld | ⟨rfl, _⟩
    · exact isFirst other isOld
    · exact isLast _ isEntry
  by_cases isKnown : name ∈ names
  · rw [noted, if_pos isKnown]
    refine ⟨lists.distinct, fun other => ?_, stillOrdered⟩
    simp only [mem_iff, exists_or, ← lists.listed, exists_eq_left]
    exact ⟨.inl, fun isListed => isListed.elim id fun same => same ▸ isKnown⟩
  · rw [noted, if_neg isKnown]
    refine ⟨?distinct, fun other => ?_, ?ordered⟩
    case distinct => exact List.concat_eq_append ▸ lists.distinct.concat isKnown
    case ordered =>
      refine List.pairwise_append.2 ⟨stillOrdered, List.pairwise_singleton _ _, ?_⟩
      rintro earlier isEarlier later isLater
      obtain rfl := List.mem_singleton.1 isLater
      obtain ⟨first, isEntry⟩ := (lists.listed earlier).1 isEarlier
      refine ⟨first, List.mem_append_left _ isEntry, fun other isOther => ?_⟩
      rcases (mem_iff other later).1 isOther with isOld | ⟨rfl, _⟩
      · exact absurd ((lists.listed later).2 ⟨other, isOld⟩) isKnown
      · exact isLast _ isEntry
    · simp only [mem_iff, exists_or, ← lists.listed, exists_eq_left, List.mem_append,
        List.mem_singleton]

/-- Names that are noted one after the other are listed in the order of their first places. -/
theorem listsFirst_foldl_noted
    (ordered : entries.Pairwise fun left right => before left.1 right.1) :
    ListsFirst before entries ((entries.map Prod.snd).foldl noted []) := by
  induction entries using List.reverseRecOn with
  | nil => exact ⟨List.nodup_nil, by simp, .nil⟩
  | append_singleton entries entry inductionHypothesis =>
    obtain ⟨orderedBefore, _, isLast⟩ := List.pairwise_append.1 ordered
    rw [List.map_append, List.foldl_append]
    exact (inductionHypothesis orderedBefore).note
      (fun earlier isEarlier => isLast earlier isEarlier entry List.mem_cons_self) entry.2

/-- Names that are noted come from what was known and from what was asked, in this order. -/
theorem foldl_noted_sublist (asked known : List String) :
    (asked.foldl noted known).Sublist (known ++ asked) := by
  induction asked generalizing known with
  | nil =>
    rw [List.append_nil]
    exact List.Sublist.refl known
  | cons name rest inductionHypothesis =>
    have notedSublist : (noted known name).Sublist (known ++ [name]) := by
      unfold noted
      split
      · exact List.sublist_append_left known [name]
      · exact List.Sublist.refl _
    have split : known ++ name :: rest = known ++ [name] ++ rest := by simp
    rw [List.foldl_cons, split]
    exact (inductionHypothesis _).trans (notedSublist.append_right rest)

end Progress

/-! ## References that are visited -/

/-- The order in which parts of a rule are visited: those inside a condition before it, and from
left to right. -/
def Step.Earlier (steps other : List Step) : Prop :=
  Place.Before (steps.map Step.index) (other.map Step.index)

namespace Visit

mutual

/-- The references of the rule itself that were visited, with the steps that lead to them and
the names of the rules, in order. -/
def inquiries : Visit → List (List Step × String)
  | .leaf _ _ => []
  | .reference rule _ => [([], rule)]
  | .not child => child.inquiries.map (Prod.map (.not :: ·) id)
  | .all clauses => clauseInquiries .all 0 clauses
  | .any clauses => clauseInquiries .any 0 clauses

/-- The references that were visited inside clauses, the first of which has the given index. -/
def clauseInquiries (stepTo : Nat → Step) (index : Nat) :
    List ClauseVisit → List (List Step × String)
  | [] => []
  | ⟨_, visit⟩ :: rest =>
    visit.inquiries.map (Prod.map (stepTo index :: ·) id) ++ clauseInquiries stepTo (index + 1) rest

end

theorem clauseInquiries_eq_flatMap
    (stepTo : Nat → Step)
    (index : Nat)
    (clauses : List ClauseVisit) :
    clauseInquiries stepTo index clauses =
      (clauses.zipIdx index).flatMap fun entry =>
        entry.1.visit.inquiries.map (Prod.map (stepTo entry.2 :: ·) id) := by
  induction clauses generalizing index with
  | nil => rfl
  | cons shown rest inductionHypothesis =>
    obtain ⟨clause, visit⟩ := shown
    rw [clauseInquiries, inductionHypothesis, List.zipIdx_cons, List.flatMap_cons]

theorem map_snd_clauseInquiries
    {clauses : List ClauseVisit}
    (inside : ∀ shown ∈ clauses, shown.visit.inquiries.map Prod.snd = shown.visit.asked)
    (stepTo : Nat → Step)
    (index : Nat) :
    (clauseInquiries stepTo index clauses).map Prod.snd = clauseAsked clauses := by
  induction clauses generalizing index with
  | nil => rfl
  | cons shown rest inductionHypothesis =>
    obtain ⟨insideFirst, insideRest⟩ := List.forall_mem_cons.1 inside
    obtain ⟨clause, visit⟩ := shown
    rw [clauseInquiries, clauseAsked, List.map_append, List.map_map, inductionHypothesis insideRest,
      ← insideFirst]
    rfl

/-- Without the steps, these are the rules that were asked. -/
theorem map_snd_inquiries (visit : Visit) : visit.inquiries.map Prod.snd = visit.asked := by
  induction visit with
  | leaf | reference => rfl
  | not child inductionHypothesis =>
    rw [inquiries, List.map_map, asked, ← inductionHypothesis]
    rfl
  | all clauses inductionHypothesis | any clauses inductionHypothesis =>
    exact map_snd_clauseInquiries inductionHypothesis _ 0

theorem mem_clauseInquiries_iff
    {stepTo : Nat → Step}
    {clauses : List ClauseVisit}
    {steps : List Step}
    {name : String} :
    (steps, name) ∈ clauseInquiries stepTo 0 clauses ↔
      ∃ index shown inner, clauses[index]? = some shown ∧ (inner, name) ∈ shown.visit.inquiries ∧
        steps = stepTo index :: inner := by
  rw [clauseInquiries_eq_flatMap, List.mem_flatMap]
  constructor
  · rintro ⟨⟨shown, index⟩, isEntry, listed⟩
    obtain ⟨⟨inner, other⟩, isInquiry, same⟩ := List.mem_map.1 listed
    obtain ⟨rfl, rfl⟩ := Prod.mk.inj same
    exact ⟨index, shown, inner, List.mem_zipIdx_iff_getElem?.1 isEntry, isInquiry, rfl⟩
  · rintro ⟨index, shown, inner, found, isInquiry, rfl⟩
    exact ⟨(shown, index), List.mem_zipIdx_iff_getElem?.2 found,
      List.mem_map_of_mem (f := Prod.map (stepTo index :: ·) id) isInquiry⟩

theorem pairwise_clauseInquiries
    {stepTo : Nat → Step}
    (keepsIndex : ∀ index, (stepTo index).index = index)
    {clauses : List ClauseVisit}
    (inside : ∀ shown ∈ clauses,
      shown.visit.inquiries.Pairwise fun left right => Step.Earlier left.1 right.1) :
    (clauseInquiries stepTo 0 clauses).Pairwise fun left right => Step.Earlier left.1 right.1 := by
  rw [clauseInquiries_eq_flatMap, List.pairwise_flatMap]
  constructor
  · rintro ⟨shown, index⟩ isEntry
    rw [List.pairwise_map]
    exact (inside shown (List.fst_mem_of_mem_zipIdx isEntry)).imp fun earlier => .inr ⟨rfl, earlier⟩
  · refine (pairwise_lt_zipIdx clauses).imp fun {first second} less left isLeft right isRight => ?_
    obtain ⟨_, _, rfl⟩ := List.mem_map.1 isLeft
    obtain ⟨_, _, rfl⟩ := List.mem_map.1 isRight
    exact .inl (by rwa [keepsIndex, keepsIndex])

/-- References are visited from left to right. -/
theorem pairwise_inquiries (visit : Visit) :
    visit.inquiries.Pairwise fun left right => Step.Earlier left.1 right.1 := by
  induction visit with
  | leaf => exact .nil
  | reference => exact List.pairwise_singleton _ _
  | not child inductionHypothesis =>
    exact List.pairwise_map.2 (inductionHypothesis.imp fun earlier => .inr ⟨rfl, earlier⟩)
  | all clauses inductionHypothesis | any clauses inductionHypothesis =>
    exact pairwise_clauseInquiries (fun _ => rfl) inductionHypothesis

end Visit

namespace Condition

variable {facts : Facts} {follow : String → Except Error Visit} {condition : Condition}
  {visit : Visit}

/-- References that are visited inside clauses are those to which clauses lead that are reached. -/
theorem mem_clauseInquiries_iff_goesTo
    (stepTo : Nat → Step)
    {name : String}
    (visited : condition.visit facts follow = .ok visit)
    (inside : ∀ clause ∈ condition.clauses, ∀ inner,
      clause.condition.visit facts follow = .ok inner → ∀ steps,
        (steps, name) ∈ inner.inquiries ↔
          clause.condition.LeadsTo (clauseVerdict facts follow) steps (.reference name))
    (steps : List Step) :
    (steps, name) ∈ Visit.clauseInquiries stepTo 0 visit.clauses ↔
      ∃ index clause inner, condition.GoesTo (clauseVerdict facts follow) index clause ∧
        clause.condition.LeadsTo (clauseVerdict facts follow) inner (.reference name) ∧
          steps = stepTo index :: inner := by
  rw [Visit.mem_clauseInquiries_iff]
  constructor
  · rintro ⟨index, shown, inner, found, isInquiry, rfl⟩
    have goesTo := (exists_getElem?_clauses_iff visited).1 ⟨shown, found, rfl⟩
    have visitedClause := visit_of_getElem?_clauses visited found
    have leads := (inside _ (List.mem_of_getElem? goesTo.isClause) _ visitedClause _).1 isInquiry
    exact ⟨index, shown.clause, inner, goesTo, leads, rfl⟩
  · rintro ⟨index, clause, inner, goesTo, leads, rfl⟩
    obtain ⟨shown, found, rfl⟩ := (exists_getElem?_clauses_iff visited).2 goesTo
    have visitedClause := visit_of_getElem?_clauses visited found
    have isInquiry := (inside _ (List.mem_of_getElem? goesTo.isClause) _ visitedClause _).2 leads
    exact ⟨index, shown, inner, found, isInquiry, rfl⟩

/-- References that are visited are those to which the condition leads. -/
theorem mem_inquiries_iff
    {name : String}
    (visited : condition.visit facts follow = .ok visit)
    (steps : List Step) :
    (steps, name) ∈ visit.inquiries ↔
      condition.LeadsTo (clauseVerdict facts follow) steps (.reference name) := by
  induction condition generalizing visit steps with
  | leaf comparison =>
    obtain ⟨matched, _, rfl⟩ := exists_of_map visited
    exact iff_of_false nofun nofun
  | reference rule =>
    obtain ⟨body, _, rfl⟩ := exists_of_map visited
    rw [Visit.inquiries, List.mem_singleton, Prod.mk.injEq]
    constructor
    · rintro ⟨rfl, rfl⟩
      exact .here
    · intro leads
      cases leads
      exact ⟨rfl, rfl⟩
  | not child inductionHypothesis =>
    obtain ⟨inner, visitedChild, rfl⟩ := exists_of_map visited
    rw [Visit.inquiries, List.mem_map]
    constructor
    · rintro ⟨⟨more, other⟩, isInquiry, same⟩
      obtain ⟨rfl, rfl⟩ := Prod.mk.inj same
      exact .not ((inductionHypothesis visitedChild _).1 isInquiry)
    · intro leads
      cases leads with
      | not leads => exact ⟨_, (inductionHypothesis visitedChild _).2 leads, rfl⟩
  | all clauses inductionHypothesis =>
    have listed_iff := mem_clauseInquiries_iff_goesTo .all visited
      (fun clause isClause _ => inductionHypothesis clause isClause) steps
    obtain ⟨visits, _, rfl⟩ := exists_of_map visited
    refine listed_iff.trans ⟨?_, ?_⟩
    · rintro ⟨index, clause, inner, goesTo, leads, rfl⟩
      exact .all goesTo leads
    · intro leads
      cases leads with
      | all goesTo leads => exact ⟨_, _, _, goesTo, leads, rfl⟩
  | any clauses inductionHypothesis =>
    have listed_iff := mem_clauseInquiries_iff_goesTo .any visited
      (fun clause isClause _ => inductionHypothesis clause isClause) steps
    obtain ⟨visits, _, rfl⟩ := exists_of_map visited
    refine listed_iff.trans ⟨?_, ?_⟩
    · rintro ⟨index, clause, inner, goesTo, leads, rfl⟩
      exact .any goesTo leads
    · intro leads
      cases leads with
      | any goesTo leads => exact ⟨_, _, _, goesTo, leads, rfl⟩

theorem clauseAsked_sublist
    {settling : Bool}
    {clauses : List Clause}
    {visits : List ClauseVisit}
    (inside : ∀ clause ∈ clauses, ∀ visit, clause.condition.visit facts follow = .ok visit →
      visit.asked.Sublist clause.condition.references)
    (visited : visitUntil facts follow settling clauses = .ok visits) :
    (Visit.clauseAsked visits).Sublist (clauseReferences clauses) := by
  induction clauses generalizing visits with
  | nil =>
    obtain rfl : [] = visits := Except.ok.inj visited
    exact .slnil
  | cons clause rest inductionHypothesis =>
    obtain ⟨insideFirst, insideRest⟩ := List.forall_mem_cons.1 inside
    rw [clauseReferences_eq_flatMap, List.flatMap_cons, ← clauseReferences_eq_flatMap]
    cases visitedFirst : clause.condition.visit facts follow with
    | error error => exact nomatch (visitUntil_of_error visitedFirst rest).symm.trans visited
    | ok visit =>
      have firstSublist := insideFirst visit visitedFirst
      by_cases settled : visit.verdict = settling
      · rw [visitUntil_of_settled visitedFirst settled] at visited
        obtain rfl : [⟨clause, visit⟩] = visits := Except.ok.inj visited
        rw [Visit.clauseAsked, Visit.clauseAsked, List.append_nil]
        exact firstSublist.trans (List.sublist_append_left _ _)
      · rw [visitUntil_of_open visitedFirst settled] at visited
        obtain ⟨others, visitedRest, rfl⟩ := exists_of_map visited
        exact firstSublist.append (inductionHypothesis insideRest visitedRest)

/-- The rules that are asked are part of the list of references, in its order. -/
theorem asked_sublist
    (visited : condition.visit facts follow = .ok visit) :
    visit.asked.Sublist condition.references := by
  induction condition generalizing visit with
  | leaf comparison =>
    obtain ⟨matched, _, rfl⟩ := exists_of_map visited
    exact .slnil
  | reference rule =>
    obtain ⟨body, _, rfl⟩ := exists_of_map visited
    exact List.Sublist.refl _
  | not child inductionHypothesis =>
    obtain ⟨inner, visitedChild, rfl⟩ := exists_of_map visited
    have inChild := inductionHypothesis visitedChild
    exact inChild
  | all clauses inductionHypothesis | any clauses inductionHypothesis =>
    obtain ⟨visits, visitedClauses, rfl⟩ := exists_of_map visited
    exact clauseAsked_sublist (fun clause member _ => inductionHypothesis clause member)
      visitedClauses

/-- A rule that is asked is followed. -/
theorem exists_follow_of_leadsTo
    {steps : List Step}
    {name : String}
    (leads : condition.LeadsTo (clauseVerdict facts follow) steps (.reference name))
    (visited : condition.visit facts follow = .ok visit) :
    ∃ body, follow name = .ok body := by
  obtain ⟨inner, visitedReference, _⟩ := mem_nodes_of_leadsTo leads visited
  obtain ⟨body, followed, _⟩ := exists_of_map visitedReference
  exact ⟨body, followed⟩

end Condition

/-! ## Dependencies of an execution -/

namespace Executor

/-- The execution of a rule gets to a reference in the condition of the rule itself. -/
def Asks (executor : Executor) (rule : Rule) (steps : List Step) (name : String) : Prop :=
  rule.condition.LeadsTo (executor.verdictOf rule) steps (.reference name)

/-- Names are those that a rule asks itself, each once, in the order in which references to them
are first visited. -/
structure AsksInOrder (executor : Executor) (rule : Rule) (names : List String) : Prop where
  distinct : names.Nodup
  asked : ∀ name, name ∈ names ↔ ∃ steps, executor.Asks rule steps name
  ordered : names.Pairwise fun earlier later =>
    ∃ first, executor.Asks rule first earlier ∧
      ∀ steps, executor.Asks rule steps later → Step.Earlier first steps

variable {executor : Executor} {rule : Rule} {evaluation : Evaluation}

/-- The dependencies of an evaluation are the rules that the executed rule asked itself, each
once and in the order in which it first asked them. They are part of the list of its references,
in the order of this list, and are all registered. Names that its condition does not mention are
not among them, whatever the rules that it asks mention. -/
theorem dependencies_are_asked
    (executed : executor.execute rule = .ok evaluation) :
    executor.AsksInOrder rule evaluation.dependencies ∧
      evaluation.dependencies.Sublist rule.references ∧
      (∀ name ∈ evaluation.dependencies, name ∈ executor.registry.names) ∧
      ∀ name, ¬rule.condition.Mentions name → name ∉ evaluation.dependencies := by
  obtain ⟨room, visit, _, visited, rfl⟩ := exists_visit_of_execute executed
  have isNoted : (visit.inquiries.map Prod.snd).foldl Progress.noted [] =
      (Evaluation.ofVisit rule executor.isTraced visit).dependencies := by
    rw [visit.map_snd_inquiries, Progress.foldl_noted_nil]
    rfl
  have asks_iff : ∀ steps name,
      (steps, name) ∈ visit.inquiries ↔ executor.Asks rule steps name := by
    intro steps name
    rw [Asks, verdictOf_eq_clauseVerdict room]
    exact Condition.mem_inquiries_iff visited steps
  have lists := Progress.listsFirst_foldl_noted visit.pairwise_inquiries
  rw [isNoted] at lists
  have inReferences : (Evaluation.ofVisit rule executor.isTraced visit).dependencies.Sublist
      rule.references := by
    rw [← isNoted, visit.map_snd_inquiries]
    exact (Progress.foldl_noted_sublist visit.asked []).trans (Condition.asked_sublist visited)
  refine ⟨⟨lists.distinct, ?asked, ?ordered⟩, inReferences, ?registered, ?mentioned⟩
  case asked => simpa only [asks_iff] using lists.listed
  case ordered => simpa only [asks_iff] using lists.ordered
  case registered =>
    intro name isListed
    obtain ⟨steps, isInquiry⟩ := (lists.listed name).1 isListed
    have leadsTo := (Condition.mem_inquiries_iff visited _).1 isInquiry
    obtain ⟨body, followed⟩ := Condition.exists_follow_of_leadsTo leadsTo visited
    obtain ⟨other, found, _⟩ := Registry.exists_of_follow followed
    obtain ⟨isRegistered, rfl⟩ := Registry.get?_eq_some_iff.1 found
    exact List.mem_map_of_mem isRegistered
  case mentioned =>
    intro name unmentioned isListed
    exact unmentioned (Condition.mem_references_iff.1 (inReferences.subset isListed))

/-- A rule that skips a reference which it visits later on. -/
def hesitant : Rule where
  name := "hesitant"
  event := {}
  failureEvent := {}
  condition := .any [
    .plain (.all [
      .plain (.leaf { fact := "absent", operator := "equal", value := .boolean true }),
      .plain (.reference "spare")]),
    .plain (.reference "preferred"),
    .plain (.reference "spare")]

/-- A rule that does not hold, as the rule that it asks holds. -/
def preferred : Rule where
  name := "preferred"
  event := {}
  failureEvent := {}
  condition := .not (.reference "obstacle")

/-- A rule that holds, of a given name. -/
def granted (name : String) : Rule where
  name := name
  event := {}
  failureEvent := {}
  condition := .all []

/-- An executor with the rules that are asked. -/
def withSpare : Executor where
  registry := (Registry.empty.registerAll [granted "spare", preferred, granted "obstacle"]).1
  facts := .empty

/-- The name that is skipped first comes last, and the name that another rule asks is left out. -/
theorem dependencies_of_hesitant :
    hesitant.references = ["spare", "preferred", "spare"] ∧
    ∃ evaluation, withSpare.execute hesitant = .ok evaluation ∧
      evaluation.dependencies = ["preferred", "spare"] ∧
      withSpare.AsksInOrder hesitant evaluation.dependencies ∧
      "obstacle" ∉ evaluation.dependencies := by
  have shown : (withSpare.execute hesitant).map Evaluation.dependencies =
      .ok ["preferred", "spare"] := rfl
  obtain ⟨evaluation, executed, isShown⟩ := exists_of_map shown
  obtain ⟨inOrder, _, _, areMentioned⟩ := dependencies_are_asked executed
  have unmentioned : ¬hesitant.condition.Mentions "obstacle" := by
    rw [← Condition.mem_references_iff]
    decide
  exact ⟨rfl, evaluation, executed, isShown, inOrder, areMentioned _ unmentioned⟩

end Executor
end Verdict
