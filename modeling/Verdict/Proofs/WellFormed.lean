import Verdict.Proofs.Occurrence
import Verdict.Rule.Definition

/-!
# Well-formed rules

A condition that was made from a specification is more than its type asks for: a
reference names a rule, a leaf names a fact and an operator, and a negation is over
a leaf or a reference. A rule that was made from a definition has a name, an event
with a type, and a condition of that kind.

These are the only demands that the conversions make on what they give out, so
well-formed conditions are those that can be written and read again.
-/

namespace Verdict

variable {α β : Type}

theorem exists_of_mem_forall₂
    {relation : α → β → Prop}
    {items : List α}
    {results : List β}
    {result : β}
    (related : List.Forall₂ relation items results)
    (member : result ∈ results) :
    ∃ item ∈ items, relation item result := by
  induction related with
  | nil => exact nomatch member
  | @cons item first items results ofFirst _ inductionHypothesis =>
    rcases List.mem_cons.1 member with rfl | inRest
    · exact ⟨item, List.mem_cons_self, ofFirst⟩
    · obtain ⟨found, inItems, ofFound⟩ := inductionHypothesis inRest
      exact ⟨found, List.mem_cons_of_mem _ inItems, ofFound⟩

/-! ## Conditions -/

theorem Leaf.make_eq_ok_iff
    {fact operator : String}
    {value : Json}
    {comparison : Leaf} :
    make fact operator value = .ok comparison ↔
      (fact ≠ "" ∧ operator ≠ "") ∧ comparison = { fact, operator, value } := by
  unfold make
  constructor
  · intro made
    split at made
    · exact nomatch made
    case isFalse named =>
      obtain ⟨factNamed, operatorNamed⟩ := not_or.1 (Bool.or_eq_true _ _ ▸ named)
      exact ⟨⟨mt String.isEmpty_iff.2 factNamed, mt String.isEmpty_iff.2 operatorNamed⟩,
        (Except.ok.inj made).symm⟩
  · rintro ⟨⟨factNamed, operatorNamed⟩, rfl⟩
    refine if_neg ?_
    rw [Bool.or_eq_true, String.isEmpty_iff, String.isEmpty_iff]
    exact not_or.2 ⟨factNamed, operatorNamed⟩

namespace Condition

/-- A condition over which a negation may stand. -/
def IsNegatable : Condition → Prop
  | .leaf _ | .reference _ => True
  | _ => False

/-- A condition of the kind that specifications describe. -/
inductive WellFormed : Condition → Prop
  | all {clauses : List Clause} :
    (∀ clause ∈ clauses, clause.condition.WellFormed) → WellFormed (.all clauses)
  | any {clauses : List Clause} :
    (∀ clause ∈ clauses, clause.condition.WellFormed) → WellFormed (.any clauses)
  | not {child : Condition} : child.IsNegatable → child.WellFormed → WellFormed (.not child)
  | reference {rule : String} : rule ≠ "" → WellFormed (.reference rule)
  | leaf {comparison : Leaf} :
    comparison.fact ≠ "" → comparison.operator ≠ "" → WellFormed (.leaf comparison)

/-- The parts of a well-formed condition are well-formed. -/
theorem WellFormed.of_within
    {part condition : Condition}
    (wellFormed : condition.WellFormed)
    (within : Within part condition) :
    part.WellFormed := by
  induction within with
  | self => exact wellFormed
  | not _ inductionHypothesis =>
    cases wellFormed with
    | not _ childWellFormed => exact inductionHypothesis childWellFormed
  | all member _ inductionHypothesis =>
    cases wellFormed with
    | all clausesWellFormed => exact inductionHypothesis (clausesWellFormed _ member)
  | any member _ inductionHypothesis =>
    cases wellFormed with
    | any clausesWellFormed => exact inductionHypothesis (clausesWellFormed _ member)

/-- Every negation in a condition is over a leaf or a reference. -/
def NegatesPlainly (condition : Condition) : Prop :=
  ∀ child, Within (.not child) condition → child.IsNegatable

theorem WellFormed.negatesPlainly
    {condition : Condition}
    (wellFormed : condition.WellFormed) :
    condition.NegatesPlainly := by
  intro child within
  cases wellFormed.of_within within with
  | not isNegatable _ => exact isNegatable

theorem negate_eq_ok_iff {child condition : Condition} :
    child.negate = .ok condition ↔ child.IsNegatable ∧ condition = .not child := by
  cases child <;> simp [negate, IsNegatable, eq_comm]

end Condition

namespace ConditionSpec

/-- Induction on specifications, with a hypothesis for everything written inside. -/
@[induction_eliminator]
theorem induction
    {motive : ConditionSpec → Prop}
    (step : ∀ spec : ConditionSpec,
      (∀ children, spec.all = some children → ∀ child ∈ children, motive child) →
      (∀ children, spec.any = some children → ∀ child ∈ children, motive child) →
      (∀ child, spec.not = some child → motive child) →
      motive spec)
    (spec : ConditionSpec) :
    motive spec :=
  @ConditionSpec.rec motive
    (fun children? => ∀ children, children? = some children → ∀ child ∈ children, motive child)
    (fun child? => ∀ child, child? = some child → motive child)
    (fun children => ∀ child ∈ children, motive child)
    (fun name all any not condition fact path operator value event ofAll ofAny ofNot =>
      step ⟨name, all, any, not, condition, fact, path, operator, value, event⟩ ofAll ofAny ofNot)
    nofun
    (fun _ ofChildren _ same => Option.some.inj same ▸ ofChildren)
    nofun
    (fun _ ofChild _ same => Option.some.inj same ▸ ofChild)
    nofun
    (fun _ _ ofFirst ofRest => List.forall_mem_cons.2 ⟨ofFirst, ofRest⟩)
    spec

theorem toClauses_eq_mapM (specs : List ConditionSpec) :
    toClauses specs = specs.mapM toClause := by
  induction specs with
  | nil => rfl
  | cons spec rest inductionHypothesis =>
    rw [toClauses, inductionHypothesis, List.mapM_cons, toClause]
    cases spec.toCondition <;> rfl

/-- A specification of one shape describes the condition of that shape. -/
theorem toCondition_of_shapeCount
    {spec : ConditionSpec}
    (oneShape : spec.shapeCount = 1) :
    spec.toCondition =
      spec.all.elim
        (spec.any.elim
          (spec.not.elim
            (spec.condition.elim spec.toLeaf toReference)
            fun child => child.toCondition.bind Condition.negate)
          fun children => (children.mapM toClause).map .any)
        fun children => (children.mapM toClause).map .all := by
  obtain ⟨name, all, any, not, condition, fact, path, operator, value, event⟩ := spec
  rw [toCondition.eq_def]
  simp only [oneShape, toClauses_eq_mapM]
  cases all with
  | some children => rfl
  | none =>
    cases any with
    | some children => rfl
    | none =>
      cases not with
      | some child => rfl
      | none => cases condition <;> rfl

theorem shapeCount_of_toCondition
    {spec : ConditionSpec}
    {condition : Condition}
    (made : spec.toCondition = .ok condition) :
    spec.shapeCount = 1 := by
  obtain ⟨name, all, any, not, condition, fact, path, operator, value, event⟩ := spec
  rw [toCondition.eq_def] at made
  dsimp only at made
  split at made
  · exact nomatch made
  · assumption
  · exact nomatch made

/-- The clauses that specifications describe are well-formed if their conditions are. -/
theorem wellFormed_of_mapM_toClause
    {specs : List ConditionSpec}
    {clauses : List Clause}
    (made : specs.mapM toClause = .ok clauses)
    (inside : ∀ spec ∈ specs, ∀ condition, spec.toCondition = .ok condition →
      condition.WellFormed) :
    ∀ clause ∈ clauses, clause.condition.WellFormed := by
  intro clause member
  obtain ⟨spec, isSpec, ofSpec⟩ := exists_of_mem_forall₂ (mapM_eq_ok_iff.1 made) member
  obtain ⟨condition, madeCondition, rfl⟩ := exists_of_map ofSpec
  exact inside spec isSpec condition madeCondition

theorem toReference_eq_ok_iff
    {rule : String}
    {condition : Condition} :
    toReference rule = .ok condition ↔ rule ≠ "" ∧ condition = .reference rule := by
  unfold toReference
  constructor
  · intro made
    split at made
    · exact nomatch made
    case isFalse named => exact ⟨mt String.isEmpty_iff.2 named, (Except.ok.inj made).symm⟩
  · rintro ⟨named, rfl⟩
    exact if_neg (mt String.isEmpty_iff.1 named)

theorem wellFormed_of_toLeaf
    {spec : ConditionSpec}
    {condition : Condition}
    (made : spec.toLeaf = .ok condition) :
    condition.WellFormed := by
  unfold toLeaf at made
  split at made
  case h_2 => exact nomatch made
  case h_1 fact operator _ _ =>
    obtain ⟨comparison, madeLeaf, same⟩ := bind_eq_ok_iff.1 made
    obtain ⟨⟨factNamed, operatorNamed⟩, rfl⟩ := Leaf.make_eq_ok_iff.1 madeLeaf
    rw [← Except.ok.inj same]
    exact .leaf factNamed operatorNamed

/-- The conditions that specifications describe are well-formed. -/
theorem wellFormed_of_toCondition
    {spec : ConditionSpec}
    {condition : Condition}
    (made : spec.toCondition = .ok condition) :
    condition.WellFormed := by
  induction spec generalizing condition with
  | step spec ofAll ofAny ofNot =>
    rw [toCondition_of_shapeCount (shapeCount_of_toCondition made)] at made
    -- the first field that is present gives the shape, in the order of the conversion
    cases isAll : spec.all with
    | some children =>
      rw [isAll] at made
      obtain ⟨clauses, madeClauses, rfl⟩ := exists_of_map made
      exact .all (wellFormed_of_mapM_toClause madeClauses
        fun child member _ => ofAll children isAll child member)
    | none =>
      cases isAny : spec.any with
      | some children =>
        rw [isAll, isAny] at made
        obtain ⟨clauses, madeClauses, rfl⟩ := exists_of_map made
        exact .any (wellFormed_of_mapM_toClause madeClauses
          fun child member _ => ofAny children isAny child member)
      | none =>
        cases isNot : spec.not with
        | some child =>
          rw [isAll, isAny, isNot] at made
          obtain ⟨inner, madeChild, negated⟩ := bind_eq_ok_iff.1 made
          obtain ⟨isNegatable, rfl⟩ := Condition.negate_eq_ok_iff.1 negated
          exact .not isNegatable (ofNot child isNot madeChild)
        | none =>
          rw [isAll, isAny, isNot] at made
          cases isReference : spec.condition with
          | some rule =>
            rw [isReference] at made
            obtain ⟨named, rfl⟩ := toReference_eq_ok_iff.1 made
            exact .reference named
          | none =>
            rw [isReference] at made
            exact wellFormed_of_toLeaf made

/-! ## Specifications of conditions -/

theorem ofClauses_eq_map (clauses : List Clause) : ofClauses clauses = clauses.map ofClause := by
  induction clauses with
  | nil => rfl
  | cons clause rest inductionHypothesis =>
    obtain ⟨name, event, condition⟩ := clause
    rw [ofClauses, inductionHypothesis, List.map_cons]
    rfl

theorem ofClause_plain (condition : Condition) :
    ofClause (.plain condition) = ofCondition condition := by
  cases condition <;> rfl

theorem mapM_toClause_ofClauses
    {clauses : List Clause}
    (inside : ∀ clause ∈ clauses, (ofClause clause).toCondition = .ok clause.condition) :
    (ofClauses clauses).mapM toClause = .ok clauses := by
  rw [ofClauses_eq_map, mapM_eq_ok_iff, List.forall₂_map_left_iff, List.forall₂_same]
  intro clause member
  rw [toClause, inside clause member]
  cases clause
  rfl

/-- The specification of a well-formed condition describes it, whatever name and event
stand beside it. -/
theorem toCondition_ofClause
    {condition : Condition}
    (wellFormed : condition.WellFormed)
    (name : Option String)
    (event : Option Event) :
    (ofClause ⟨name, event, condition⟩).toCondition = .ok condition := by
  induction wellFormed generalizing name event with
  | @all clauses _ inductionHypothesis =>
    have inside := mapM_toClause_ofClauses fun clause member =>
      inductionHypothesis clause member clause.name clause.event
    rw [toCondition_of_shapeCount rfl]
    change ((ofClauses clauses).mapM toClause).map Condition.all = _
    rw [inside]
    rfl
  | @any clauses _ inductionHypothesis =>
    have inside := mapM_toClause_ofClauses fun clause member =>
      inductionHypothesis clause member clause.name clause.event
    rw [toCondition_of_shapeCount rfl]
    change ((ofClauses clauses).mapM toClause).map Condition.any = _
    rw [inside]
    rfl
  | @not child isNegatable _ inductionHypothesis =>
    have ofChild := inductionHypothesis none none
    rw [toCondition_of_shapeCount rfl]
    refine bind_eq_ok_iff.2 ⟨child, ?_, Condition.negate_eq_ok_iff.2 ⟨isNegatable, rfl⟩⟩
    exact ofClause_plain child ▸ ofChild
  | reference named =>
    rw [toCondition_of_shapeCount rfl]
    exact toReference_eq_ok_iff.2 ⟨named, rfl⟩
  | leaf factNamed operatorNamed =>
    rw [toCondition_of_shapeCount rfl]
    exact bind_eq_ok_iff.2 ⟨_, Leaf.make_eq_ok_iff.2 ⟨⟨factNamed, operatorNamed⟩, rfl⟩, rfl⟩

/-- The specification of a well-formed condition describes it. -/
theorem toCondition_ofCondition
    {condition : Condition}
    (wellFormed : condition.WellFormed) :
    (ofCondition condition).toCondition = .ok condition :=
  ofClause_plain condition ▸ toCondition_ofClause wellFormed none none

end ConditionSpec

/-! ## Rules -/

namespace Rule

/-- A rule of the kind that definitions describe. -/
structure WellFormed (rule : Rule) : Prop where
  named : rule.name ≠ ""
  typed : rule.event.type ≠ ""
  condition : rule.condition.WellFormed

theorem make_eq_ok_iff
    {name : String}
    {condition : Condition}
    {event : Event}
    {rule : Rule} :
    make name condition event = .ok rule ↔
      (name ≠ "" ∧ event.type ≠ "") ∧
        rule = { name, condition, event, failureEvent := { type := name } } := by
  constructor
  · intro made
    unfold make at made
    split at made
    · exact nomatch made
    · split at made
      · exact nomatch made
      case isFalse.isFalse named typed =>
        exact ⟨⟨mt String.isEmpty_iff.2 named, mt String.isEmpty_iff.2 typed⟩,
          (Except.ok.inj made).symm⟩
  · rintro ⟨⟨named, typed⟩, rfl⟩
    rw [make, if_neg (mt String.isEmpty_iff.1 named), if_neg (mt String.isEmpty_iff.1 typed)]

end Rule

namespace Decision

/-- The clause of a decision: it carries the name and the event of the decision, and its
condition is what the conditions of the decision describe. -/
structure Describes (decision : Decision) (clause : Clause) : Prop where
  name : clause.name = some decision.name
  event : clause.event = some decision.event
  condition : decision.conditions.toCondition = .ok clause.condition

theorem toClause_eq_ok_iff
    {decision : Decision}
    {clause : Clause} :
    decision.toClause = .ok clause ↔ decision.Describes clause := by
  constructor
  · intro made
    obtain ⟨condition, ofConditions, rfl⟩ := exists_of_map made
    exact ⟨rfl, rfl, ofConditions⟩
  · intro describes
    obtain ⟨name, event, condition⟩ := clause
    obtain ⟨rfl, rfl, ofConditions⟩ := describes
    rw [toClause, ofConditions]
    rfl

end Decision

namespace RuleDefinition

/-- What a definition says of the rule that it describes. -/
structure Describes (definition : RuleDefinition) (rule : Rule) : Prop where
  name : rule.name = definition.name.getD ""
  condition : definition.toCondition = .ok rule.condition
  event : definition.event = some rule.event
  failureEvent : rule.failureEvent = definition.failureEvent.getD { type := rule.name }
  named : rule.name ≠ ""
  typed : rule.event.type ≠ ""

variable {definition : RuleDefinition} {rule : Rule} {condition : Condition}

/-- A rule is made when its condition was made and there is an event. -/
theorem toRule_of_toCondition
    {event : Event}
    (ofCondition : definition.toCondition = .ok condition)
    (ofEvent : definition.event = some event) :
    definition.toRule =
      ((Rule.make (definition.name.getD "") condition event).mapError .invalidRule).map
        fun rule => rule.withFailureEvent (definition.failureEvent.getD rule.failureEvent) := by
  unfold toRule
  rw [ofCondition, ofEvent]
  change (Except.mapError Error.invalidRule (Rule.make _ condition event) >>= _) = _
  cases Rule.make (definition.name.getD "") condition event with
  | error fault => rfl
  | ok rule => cases definition.failureEvent <;> rfl

theorem toRule_eq_ok_iff : definition.toRule = .ok rule ↔ definition.Describes rule := by
  constructor
  · intro made
    cases ofCondition : definition.toCondition with
    | error fault =>
      rw [toRule, ofCondition] at made
      exact nomatch made
    | ok condition =>
      cases ofEvent : definition.event with
      | none =>
        rw [toRule, ofCondition, ofEvent] at made
        exact nomatch made
      | some event =>
        rw [toRule_of_toCondition ofCondition ofEvent] at made
        obtain ⟨plain, ofMake, rfl⟩ := exists_of_map made
        obtain ⟨⟨named, typed⟩, rfl⟩ := Rule.make_eq_ok_iff.1 (mapError_eq_ok_iff.1 ofMake)
        exact ⟨rfl, ofCondition, ofEvent, rfl, named, typed⟩
  · intro describes
    have isNamed := describes.name ▸ describes.named
    rw [toRule_of_toCondition describes.condition describes.event,
      Rule.make_eq_ok_iff.2 ⟨⟨isNamed, describes.typed⟩, rfl⟩]
    obtain ⟨name, condition, event, failureEvent⟩ := rule
    obtain rfl : name = definition.name.getD "" := describes.name
    have sameFailureEvent : failureEvent =
        definition.failureEvent.getD { type := definition.name.getD "" } := describes.failureEvent
    rw [sameFailureEvent]
    rfl

/-- A specification decides alone, and describes the condition of the rule. -/
theorem toCondition_eq_ok_iff_of_conditions
    {spec : ConditionSpec}
    (given : definition.conditions = some spec) :
    definition.toCondition = .ok condition ↔
      definition.decisions = none ∧ spec.toCondition = .ok condition := by
  unfold toCondition
  rw [given]
  cases definition.decisions with
  | some decisions => exact ⟨nofun, fun alone => nomatch alone.1⟩
  | none =>
    change (if spec.isEmpty = true then Except.error _
      else spec.toCondition.mapError Error.invalidCondition) = .ok condition ↔ _
    split
    case isTrue isEmpty =>
      refine ⟨nofun, fun alone => ?_⟩
      have oneShape := ConditionSpec.shapeCount_of_toCondition alone.2
      rw [ConditionSpec.isEmpty, oneShape] at isEmpty
      exact absurd isEmpty (by decide)
    case isFalse =>
      rw [mapError_eq_ok_iff]
      exact ⟨fun made => ⟨rfl, made⟩, And.right⟩

/-- Decisions describe a group of clauses, one for each of them in their order, any of
which must hold. -/
theorem toCondition_eq_ok_iff_of_decisions
    {decisions : List Decision}
    (listed : definition.decisions = some decisions) :
    definition.toCondition = .ok condition ↔
      definition.conditions = none ∧ decisions ≠ [] ∧ ∃ clauses,
        List.Forall₂ Decision.Describes decisions clauses ∧ condition = .any clauses := by
  have converted : ∀ clauses, decisions.mapM Decision.toClause = .ok clauses ↔
      List.Forall₂ Decision.Describes decisions clauses := fun clauses => by
    simp only [mapM_eq_ok_iff, Decision.toClause_eq_ok_iff]
  unfold toCondition
  rw [listed]
  cases definition.conditions with
  | some spec => exact ⟨nofun, fun given => nomatch given.1⟩
  | none =>
    cases decisions with
    | nil => exact ⟨nofun, fun listed => absurd rfl listed.2.1⟩
    | cons decision others =>
      refine Iff.trans mapError_eq_ok_iff ?_
      constructor
      · intro made
        obtain ⟨clauses, ofDecisions, rfl⟩ := exists_of_map made
        exact ⟨rfl, nofun, clauses, (converted clauses).1 ofDecisions, rfl⟩
      · rintro ⟨_, _, clauses, described, rfl⟩
        rw [(converted clauses).2 described]
        rfl

theorem wellFormed_of_toCondition
    (made : definition.toCondition = .ok condition) :
    condition.WellFormed := by
  cases given : definition.conditions with
  | some spec =>
    obtain ⟨_, ofSpec⟩ := (toCondition_eq_ok_iff_of_conditions given).1 made
    exact ConditionSpec.wellFormed_of_toCondition ofSpec
  | none =>
    cases listed : definition.decisions with
    | none =>
      rw [toCondition, given, listed] at made
      exact nomatch made
    | some decisions =>
      obtain ⟨_, _, clauses, described, rfl⟩ :=
        (toCondition_eq_ok_iff_of_decisions listed).1 made
      refine .any fun clause member => ?_
      obtain ⟨decision, _, describes⟩ := exists_of_mem_forall₂ described member
      exact ConditionSpec.wellFormed_of_toCondition describes.condition

theorem wellFormed_of_toRule (made : definition.toRule = .ok rule) : rule.WellFormed := by
  have describes := toRule_eq_ok_iff.1 made
  exact ⟨describes.named, describes.typed, wellFormed_of_toCondition describes.condition⟩

end RuleDefinition

end Verdict
