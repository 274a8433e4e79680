import Mathlib.Data.List.Nodup
import Mathlib.Logic.Relation
import Verdict.Proofs.WellFormed

/-!
# The grammar of written conditions

Any field of a specification may be present, but only some specifications describe a
condition. This module states which ones, node by node: a node has exactly one shape, a
reference names a rule, a leaf names a fact and an operator, and a negation is over a leaf or
a reference. It also states which condition a specification is the form of, by the fields of
its shape.

A specification is converted exactly if all its nodes are sound, and then to the condition of
which it is the form. Otherwise the conversion gives a fault that one of the nodes has.
-/

namespace Verdict
namespace Condition

/-- The five shapes of conditions. -/
inductive Shape where
  | all
  | any
  | not
  | reference
  | leaf
  deriving DecidableEq

/-- The shape of a condition. -/
def shape : Condition → Shape
  | .all _ => .all
  | .any _ => .any
  | .not _ => .not
  | .reference _ => .reference
  | .leaf _ => .leaf

theorem isNegatable_iff {condition : Condition} :
    condition.IsNegatable ↔ condition.shape = .leaf ∨ condition.shape = .reference := by
  cases condition <;> simp [IsNegatable, shape]

/-- Only the negation of a group or of a negation fails. -/
theorem negate_eq_error_iff
    {child : Condition}
    {fault : ConditionFault} :
    child.negate = .error fault ↔ ¬child.IsNegatable ∧ fault = .negatedGroup := by
  cases child <;> simp [negate, IsNegatable, eq_comm]

end Condition

namespace ConditionSpec

open Condition (Shape)

/-! ## Shapes -/

/-- Whether a specification has a field of a shape. -/
def has (spec : ConditionSpec) : Shape → Bool
  | .all => spec.all.isSome
  | .any => spec.any.isSome
  | .not => spec.not.isSome
  | .reference => spec.condition.isSome
  | .leaf => spec.fact.isSome || spec.operator.isSome || spec.path.isSome || spec.value.isSome

/-- The shapes of which a specification has a field. -/
def shapes (spec : ConditionSpec) : List Shape :=
  [.all, .any, .not, .reference, .leaf].filter spec.has

variable {spec child : ConditionSpec} {condition : Condition} {fault : ConditionFault}
  {shape other : Shape}

theorem mem_shapes_iff : shape ∈ spec.shapes ↔ spec.has shape = true := by
  rw [shapes, List.mem_filter]
  cases shape <;> simp

theorem nodup_shapes (spec : ConditionSpec) : spec.shapes.Nodup :=
  .filter _ (by decide)

theorem shapeCount_eq_length (spec : ConditionSpec) : spec.shapeCount = spec.shapes.length := by
  have counted :
      spec.shapeCount = ([.all, .any, .not, .reference, .leaf].map spec.has).count true := rfl
  rw [counted, shapes, ← List.countP_eq_length_filter, List.count_eq_countP, List.countP_map]
  exact List.countP_congr fun _ _ => by simp

/-- A specification has a field of one shape only. -/
def HasOneShape (spec : ConditionSpec) : Prop :=
  ∃! shape, spec.has shape = true

theorem shapeCount_eq_one_iff : spec.shapeCount = 1 ↔ spec.HasOneShape := by
  rw [shapeCount_eq_length, List.length_eq_one_iff]
  constructor
  · rintro ⟨shape, only⟩
    refine ⟨shape, mem_shapes_iff.1 (only ▸ List.mem_singleton_self shape), fun other has => ?_⟩
    exact List.mem_singleton.1 (only ▸ mem_shapes_iff.2 has)
  · rintro ⟨shape, has, only⟩
    have same : ∀ other, other ∈ spec.shapes ↔ other ∈ [shape] := by
      intro other
      rw [mem_shapes_iff, List.mem_singleton]
      exact ⟨only other, fun same => same ▸ has⟩
    have permuted : spec.shapes.Perm [shape] :=
      (List.perm_ext_iff_of_nodup spec.nodup_shapes (List.nodup_singleton shape)).2 same
    exact ⟨shape, List.perm_singleton.1 permuted⟩

theorem shapeCount_eq_zero_iff : spec.shapeCount = 0 ↔ ∀ shape, spec.has shape = false := by
  rw [shapeCount_eq_length, List.length_eq_zero_iff, List.eq_nil_iff_forall_not_mem]
  simp only [mem_shapes_iff, Bool.not_eq_true]

/-- A specification without a field of any shape is empty. -/
theorem isEmpty_iff : spec.isEmpty = true ↔ ∀ shape, spec.has shape = false := by
  rw [isEmpty, beq_iff_eq, shapeCount_eq_zero_iff]

/-- A specification with more than one shape has two different ones. -/
theorem exists_two_shapes
    (several : 1 < spec.shapeCount) :
    ∃ shape other, shape ≠ other ∧ spec.has shape = true ∧ spec.has other = true := by
  rw [shapeCount_eq_length] at several
  obtain ⟨first, second, rest, found⟩ : ∃ first second rest,
      spec.shapes = first :: second :: rest := by
    cases found : spec.shapes with
    | nil => simp [found] at several
    | cons first others =>
      cases others with
      | nil => simp [found] at several
      | cons second rest => exact ⟨first, second, rest, rfl⟩
  refine ⟨first, second, ?different, ?first, ?second⟩
  case different =>
    have distinct := found ▸ spec.nodup_shapes
    exact List.ne_of_not_mem_cons (List.nodup_cons.1 distinct).1
  case first => simp [← mem_shapes_iff, found]
  case second => simp [← mem_shapes_iff, found]

/-! ## Nodes -/

/-- A specification is written directly inside another one. -/
inductive Encloses (spec child : ConditionSpec) : Prop
  | all {children : List ConditionSpec} :
    spec.all = some children → child ∈ children → Encloses spec child
  | any {children : List ConditionSpec} :
    spec.any = some children → child ∈ children → Encloses spec child
  | not : spec.not = some child → Encloses spec child

/-- The nodes of a specification are itself and what is written inside it, at any depth. -/
def HasNode : ConditionSpec → ConditionSpec → Prop :=
  Relation.ReflTransGen Encloses

/-- A leaf names a fact and an operator. -/
def NamesLeaf (spec : ConditionSpec) : Prop :=
  ∃ fact operator, spec.fact = some fact ∧ spec.operator = some operator ∧
    fact ≠ "" ∧ operator ≠ ""

/-- What the grammar asks of a node: it has exactly one shape, a reference names a rule, a
leaf names a fact and an operator, and what a negation is over has the shape of a leaf or of
a reference. -/
structure IsSound (spec : ConditionSpec) : Prop where
  oneShape : spec.HasOneShape
  named : spec.condition ≠ some ""
  complete : spec.has .leaf = true → spec.NamesLeaf
  negatable : ∀ child, spec.not = some child →
    child.has .leaf = true ∨ child.has .reference = true

/-- A specification follows the grammar if all its nodes are sound. -/
def IsGrammatical (spec : ConditionSpec) : Prop :=
  ∀ node, spec.HasNode node → node.IsSound

/-- What a fault says of the node that has it. -/
def HasFault (spec : ConditionSpec) : ConditionFault → Prop
  | .noShape => ∀ shape, spec.has shape = false
  | .severalShapes =>
    ∃ shape other, shape ≠ other ∧ spec.has shape = true ∧ spec.has other = true
  | .negatedGroup =>
    ∃ child, spec.not = some child ∧ child.has .leaf = false ∧ child.has .reference = false
  | .unnamedReference => spec.condition = some ""
  | .incompleteLeaf => spec.has .leaf = true ∧ ¬spec.NamesLeaf

/-- A sound node has no fault. -/
theorem HasFault.not_isSound (hasFault : spec.HasFault fault) : ¬spec.IsSound := by
  intro sound
  cases fault with
  | noShape =>
    obtain ⟨shape, has, _⟩ := sound.oneShape
    exact nomatch has.symm.trans (hasFault shape)
  | severalShapes =>
    obtain ⟨shape, other, different, has, hasOther⟩ := hasFault
    exact different (sound.oneShape.unique has hasOther)
  | negatedGroup =>
    obtain ⟨child, given, noLeaf, noReference⟩ := hasFault
    rcases sound.negatable child given with isLeaf | isReference
    · exact nomatch isLeaf.symm.trans noLeaf
    · exact nomatch isReference.symm.trans noReference
  | unnamedReference => exact sound.named hasFault
  | incompleteLeaf => exact hasFault.2 (sound.complete hasFault.1)

theorem isGrammatical_iff :
    spec.IsGrammatical ↔ spec.IsSound ∧ ∀ child, spec.Encloses child → child.IsGrammatical := by
  constructor
  · intro grammatical
    exact ⟨grammatical spec .refl, fun child encloses node isNode =>
      grammatical node (.head encloses isNode)⟩
  · rintro ⟨sound, inside⟩ node isNode
    rcases Relation.ReflTransGen.cases_head isNode with rfl | ⟨child, encloses, isNode⟩
    · exact sound
    · exact inside child encloses node isNode

/-! ## Forms of conditions -/

/-- A specification carries the name and the event of a clause. -/
structure Labels (spec : ConditionSpec) (clause : Clause) : Prop where
  name : clause.name = spec.name
  event : clause.event = spec.event

/-- A specification is the form of a condition: the fields of its shape say what the condition
is. The children of a group are the forms of its clauses, in order, and carry their names and
events. A value that is missing is null. -/
inductive IsFormOf : ConditionSpec → Condition → Prop
  | all {spec : ConditionSpec} {children : List ConditionSpec} {clauses : List Clause} :
    spec.all = some children → List.Forall₂ Labels children clauses →
      (∀ pair ∈ children.zip clauses, IsFormOf pair.1 pair.2.condition) →
      IsFormOf spec (.all clauses)
  | any {spec : ConditionSpec} {children : List ConditionSpec} {clauses : List Clause} :
    spec.any = some children → List.Forall₂ Labels children clauses →
      (∀ pair ∈ children.zip clauses, IsFormOf pair.1 pair.2.condition) →
      IsFormOf spec (.any clauses)
  | not {spec child : ConditionSpec} {condition : Condition} :
    spec.not = some child → IsFormOf child condition → IsFormOf spec (.not condition)
  | reference {spec : ConditionSpec} {rule : String} :
    spec.condition = some rule → IsFormOf spec (.reference rule)
  | leaf {spec : ConditionSpec} {comparison : Leaf} :
    spec.fact = some comparison.fact → spec.operator = some comparison.operator →
      comparison.path = spec.path → comparison.value = spec.value.getD .null →
      IsFormOf spec (.leaf comparison)

/-- The form of a condition has its shape. -/
theorem IsFormOf.has (isForm : spec.IsFormOf condition) : spec.has condition.shape = true := by
  cases isForm with
  | all given | any given | not given | reference given | leaf given =>
    simp [Condition.shape, ConditionSpec.has, given]

/-- A condition can be negated if its form has the shape of a leaf or of a reference. -/
theorem IsFormOf.isNegatable_iff
    (isForm : spec.IsFormOf condition)
    (oneShape : spec.HasOneShape) :
    condition.IsNegatable ↔ spec.has .leaf = true ∨ spec.has .reference = true := by
  have has_iff : ∀ shape, spec.has shape = true ↔ condition.shape = shape := fun shape =>
    ⟨oneShape.unique isForm.has, fun same => same ▸ isForm.has⟩
  rw [Condition.isNegatable_iff, has_iff, has_iff]

/-! ## What is converted -/

theorem toClause_eq_ok_iff {clause : Clause} :
    spec.toClause = .ok clause ↔
      spec.Labels clause ∧ spec.toCondition = .ok clause.condition := by
  constructor
  · intro made
    obtain ⟨condition, ofCondition, rfl⟩ := exists_of_map made
    exact ⟨⟨rfl, rfl⟩, ofCondition⟩
  · rintro ⟨labels, ofCondition⟩
    obtain ⟨name, event, condition⟩ := clause
    obtain ⟨rfl, rfl⟩ := labels
    rw [toClause, ofCondition]
    rfl

/-- The children of a group are converted exactly if each is converted to the condition of its
clause, whose name and event it carries. -/
theorem mapM_toClause_eq_ok_iff {children : List ConditionSpec} {clauses : List Clause} :
    children.mapM toClause = .ok clauses ↔
      List.Forall₂ Labels children clauses ∧
        ∀ pair ∈ children.zip clauses, pair.1.toCondition = .ok pair.2.condition := by
  simp only [mapM_eq_ok_iff, toClause_eq_ok_iff]
  constructor
  · intro converted
    exact ⟨converted.imp fun _ _ => And.left, fun _ inZip => (List.forall₂_zip converted inZip).2⟩
  · rintro ⟨labelled, converted⟩
    refine List.forall₂_iff_zip.2 ⟨labelled.length_eq, fun inZip => ?_⟩
    exact ⟨List.forall₂_zip labelled inZip, converted _ inZip⟩

theorem toLeaf_eq_ok_iff :
    spec.toLeaf = .ok condition ↔
      ∃ fact operator, spec.fact = some fact ∧ spec.operator = some operator ∧
        fact ≠ "" ∧ operator ≠ "" ∧
        condition = .leaf ⟨fact, spec.path, operator, spec.value.getD .null⟩ := by
  unfold toLeaf
  constructor
  · intro made
    split at made
    case h_2 => exact nomatch made
    case h_1 fact operator isFact isOperator =>
      obtain ⟨comparison, madeLeaf, same⟩ := bind_eq_ok_iff.1 made
      obtain ⟨⟨factNamed, operatorNamed⟩, rfl⟩ := Leaf.make_eq_ok_iff.1 madeLeaf
      exact ⟨fact, operator, isFact, isOperator, factNamed, operatorNamed,
        (Except.ok.inj same).symm⟩
  · rintro ⟨fact, operator, isFact, isOperator, factNamed, operatorNamed, rfl⟩
    rw [isFact, isOperator]
    exact bind_eq_ok_iff.2 ⟨_, Leaf.make_eq_ok_iff.2 ⟨⟨factNamed, operatorNamed⟩, rfl⟩, rfl⟩

/-- A leaf is refused only if it does not name a fact and an operator. -/
theorem fault_of_toLeaf
    (failed : spec.toLeaf = .error fault) :
    fault = .incompleteLeaf ∧ ¬spec.NamesLeaf := by
  constructor
  · unfold toLeaf at failed
    split at failed
    case h_2 => exact (Except.error.inj failed).symm
    case h_1 =>
      rcases error_of_bind failed with inMake | ⟨_, _, isError⟩
      · unfold Leaf.make at inMake
        split at inMake
        · exact (Except.error.inj inMake).symm
        · exact nomatch inMake
      · exact nomatch isError
  · rintro ⟨fact, operator, isFact, isOperator, factNamed, operatorNamed⟩
    have made := toLeaf_eq_ok_iff.2
      ⟨fact, operator, isFact, isOperator, factNamed, operatorNamed, rfl⟩
    exact nomatch failed.symm.trans made

theorem toReference_eq_error_iff {rule : String} :
    toReference rule = .error fault ↔ rule = "" ∧ fault = .unnamedReference := by
  unfold toReference
  split
  case isTrue unnamed => simp [String.isEmpty_iff.1 unnamed, eq_comm]
  case isFalse named => simp [mt String.isEmpty_iff.2 named]

/-- What a specification is converted to by the fields of one shape. -/
def toConditionBy (spec : ConditionSpec) : Shape → Except ConditionFault Condition
  | .all => ((spec.all.getD []).mapM toClause).map .all
  | .any => ((spec.any.getD []).mapM toClause).map .any
  | .not => (spec.not.getD {}).toCondition.bind Condition.negate
  | .reference => toReference (spec.condition.getD "")
  | .leaf => spec.toLeaf

/-- A specification of one shape is converted by the fields of that shape. -/
theorem toCondition_eq_toConditionBy
    (oneShape : spec.HasOneShape)
    (has : spec.has shape = true) :
    spec.toCondition = spec.toConditionBy shape := by
  -- the conversion takes the first field it finds, so those before it must be shown absent
  have absent : ∀ other, other ≠ shape → ¬spec.has other = true := fun other different hasOther =>
    different (oneShape.unique hasOther has)
  have noAll : Shape.all ≠ shape → spec.all = none := fun different =>
    Option.not_isSome_iff_eq_none.1 (absent .all different)
  have noAny : Shape.any ≠ shape → spec.any = none := fun different =>
    Option.not_isSome_iff_eq_none.1 (absent .any different)
  have noNot : Shape.not ≠ shape → spec.not = none := fun different =>
    Option.not_isSome_iff_eq_none.1 (absent .not different)
  have noReference : Shape.reference ≠ shape → spec.condition = none := fun different =>
    Option.not_isSome_iff_eq_none.1 (absent .reference different)
  rw [toCondition_of_shapeCount (shapeCount_eq_one_iff.2 oneShape)]
  cases shape with
  | all =>
    obtain ⟨children, given⟩ := Option.isSome_iff_exists.1 has
    rw [toConditionBy, given]
    rfl
  | any =>
    obtain ⟨children, given⟩ := Option.isSome_iff_exists.1 has
    rw [toConditionBy, noAll nofun, given]
    rfl
  | not =>
    obtain ⟨child, given⟩ := Option.isSome_iff_exists.1 has
    rw [toConditionBy, noAll nofun, noAny nofun, given]
    rfl
  | reference =>
    obtain ⟨rule, given⟩ := Option.isSome_iff_exists.1 has
    rw [toConditionBy, noAll nofun, noAny nofun, noNot nofun, given]
    rfl
  | leaf =>
    rw [toConditionBy, noAll nofun, noAny nofun, noNot nofun, noReference nofun]
    rfl

/-- A specification that does not have one shape is refused for that. -/
theorem hasFault_of_not_hasOneShape
    (notOne : ¬spec.HasOneShape)
    (failed : spec.toCondition = .error fault) :
    spec.HasFault fault := by
  have notCounted := mt shapeCount_eq_one_iff.1 notOne
  obtain ⟨name, all, any, not, condition, fact, path, operator, value, event⟩ := spec
  rw [toCondition.eq_def] at failed
  dsimp only at failed
  split at failed
  case h_1 isZero =>
    obtain rfl := Except.error.inj failed
    exact shapeCount_eq_zero_iff.1 isZero
  case h_2 isOne => exact absurd isOne notCounted
  case h_3 notZero _ =>
    obtain rfl := Except.error.inj failed
    exact exists_two_shapes (Nat.one_lt_iff_ne_zero_and_ne_one.2 ⟨notZero, notCounted⟩)

/-! ## Converted specifications follow the grammar -/

/-- What a specification is converted to is the condition of which it is the form. -/
theorem isFormOf_of_toCondition
    (made : spec.toCondition = .ok condition) :
    spec.IsFormOf condition := by
  induction spec generalizing condition with
  | step spec ofAll ofAny ofNot =>
    have oneShape := shapeCount_eq_one_iff.1 (shapeCount_of_toCondition made)
    obtain ⟨shape, has⟩ := oneShape.exists
    rw [toCondition_eq_toConditionBy oneShape has] at made
    cases shape with
    | all =>
      obtain ⟨children, given⟩ := Option.isSome_iff_exists.1 has
      rw [toConditionBy, given] at made
      obtain ⟨clauses, converted, rfl⟩ := exists_of_map made
      obtain ⟨labelled, inside⟩ := mapM_toClause_eq_ok_iff.1 converted
      exact .all given labelled fun pair inZip =>
        ofAll children given pair.1 (List.of_mem_zip inZip).1 (inside pair inZip)
    | any =>
      obtain ⟨children, given⟩ := Option.isSome_iff_exists.1 has
      rw [toConditionBy, given] at made
      obtain ⟨clauses, converted, rfl⟩ := exists_of_map made
      obtain ⟨labelled, inside⟩ := mapM_toClause_eq_ok_iff.1 converted
      exact .any given labelled fun pair inZip =>
        ofAny children given pair.1 (List.of_mem_zip inZip).1 (inside pair inZip)
    | not =>
      obtain ⟨child, given⟩ := Option.isSome_iff_exists.1 has
      rw [toConditionBy, given] at made
      obtain ⟨inner, madeChild, negated⟩ := bind_eq_ok_iff.1 made
      obtain ⟨_, rfl⟩ := Condition.negate_eq_ok_iff.1 negated
      exact .not given (ofNot child given madeChild)
    | reference =>
      obtain ⟨rule, given⟩ := Option.isSome_iff_exists.1 has
      rw [toConditionBy, given] at made
      obtain ⟨_, rfl⟩ := toReference_eq_ok_iff.1 made
      exact .reference given
    | leaf =>
      obtain ⟨fact, operator, isFact, isOperator, _, _, rfl⟩ := toLeaf_eq_ok_iff.1 made
      exact .leaf isFact isOperator rfl rfl

/-- What is written inside a converted specification is converted as well. -/
theorem Encloses.exists_toCondition
    (encloses : spec.Encloses child)
    (made : spec.toCondition = .ok condition) :
    ∃ inner, child.toCondition = .ok inner := by
  have oneShape := shapeCount_eq_one_iff.1 (shapeCount_of_toCondition made)
  have ofChildren : ∀ {children : List ConditionSpec} {group : List Clause → Condition},
      child ∈ children → (children.mapM toClause).map group = .ok condition →
        ∃ inner, child.toCondition = .ok inner := by
    intro children group member madeGroup
    obtain ⟨clauses, converted, _⟩ := exists_of_map madeGroup
    exact exists_map_iff.1 (exists_mapM_iff.1 ⟨clauses, converted⟩ child member)
  cases encloses with
  | all given member =>
    have has : spec.has .all = true := by simp [ConditionSpec.has, given]
    rw [toCondition_eq_toConditionBy oneShape has, toConditionBy, given] at made
    exact ofChildren member made
  | any given member =>
    have has : spec.has .any = true := by simp [ConditionSpec.has, given]
    rw [toCondition_eq_toConditionBy oneShape has, toConditionBy, given] at made
    exact ofChildren member made
  | not given =>
    have has : spec.has .not = true := by simp [ConditionSpec.has, given]
    rw [toCondition_eq_toConditionBy oneShape has, toConditionBy, given] at made
    obtain ⟨inner, madeChild, _⟩ := bind_eq_ok_iff.1 made
    exact ⟨inner, madeChild⟩

/-- A converted specification is sound by itself. -/
theorem isSound_of_toCondition
    (made : spec.toCondition = .ok condition) :
    spec.IsSound := by
  have oneShape := shapeCount_eq_one_iff.1 (shapeCount_of_toCondition made)
  refine ⟨oneShape, ?named, ?complete, ?negatable⟩
  case named =>
    intro unnamed
    have has : spec.has .reference = true := by simp [ConditionSpec.has, unnamed]
    rw [toCondition_eq_toConditionBy oneShape has, toConditionBy, unnamed] at made
    exact (toReference_eq_ok_iff.1 made).1 rfl
  case complete =>
    intro has
    rw [toCondition_eq_toConditionBy oneShape has] at made
    obtain ⟨fact, operator, isFact, isOperator, factNamed, operatorNamed, _⟩ :=
      toLeaf_eq_ok_iff.1 made
    exact ⟨fact, operator, isFact, isOperator, factNamed, operatorNamed⟩
  case negatable =>
    intro child given
    have has : spec.has .not = true := by simp [ConditionSpec.has, given]
    rw [toCondition_eq_toConditionBy oneShape has, toConditionBy, given] at made
    obtain ⟨inner, madeChild, negated⟩ := bind_eq_ok_iff.1 made
    obtain ⟨isNegatable, _⟩ := Condition.negate_eq_ok_iff.1 negated
    have childOneShape := shapeCount_eq_one_iff.1 (shapeCount_of_toCondition madeChild)
    exact ((isFormOf_of_toCondition madeChild).isNegatable_iff childOneShape).1 isNegatable

/-- A converted specification follows the grammar. -/
theorem isGrammatical_of_toCondition
    (made : spec.toCondition = .ok condition) :
    spec.IsGrammatical := by
  intro node isNode
  -- every node on the way down is converted, so the last one is
  have converted : ∃ inner, node.toCondition = .ok inner := by
    induction isNode with
    | refl => exact ⟨condition, made⟩
    | tail _ encloses inductionHypothesis =>
      obtain ⟨outer, madeOuter⟩ := inductionHypothesis
      exact encloses.exists_toCondition madeOuter
  obtain ⟨inner, madeNode⟩ := converted
  exact isSound_of_toCondition madeNode

/-! ## What follows the grammar is converted -/

/-- The fault of a group is that of one of its children. -/
theorem exists_of_mapM_toClause_eq_error
    {children : List ConditionSpec}
    (failed : children.mapM toClause = .error fault) :
    ∃ child ∈ children, child.toCondition = .error fault := by
  obtain ⟨before, child, after, rfl, _, inChild⟩ := mapM_eq_error_iff.1 failed
  exact ⟨child, List.mem_append_right before List.mem_cons_self, error_of_map inChild⟩

/-- A specification that is refused has the fault by itself, or it is that of a specification
written inside it. -/
theorem hasFault_or_exists_of_toCondition
    (failed : spec.toCondition = .error fault) :
    spec.HasFault fault ∨ ∃ child, spec.Encloses child ∧ child.toCondition = .error fault := by
  by_cases oneShape : spec.HasOneShape
  case neg => exact .inl (hasFault_of_not_hasOneShape oneShape failed)
  obtain ⟨shape, has⟩ := oneShape.exists
  rw [toCondition_eq_toConditionBy oneShape has] at failed
  cases shape with
  | all =>
    obtain ⟨children, given⟩ := Option.isSome_iff_exists.1 has
    rw [toConditionBy, given] at failed
    obtain ⟨child, member, inChild⟩ := exists_of_mapM_toClause_eq_error (error_of_map failed)
    exact .inr ⟨child, .all given member, inChild⟩
  | any =>
    obtain ⟨children, given⟩ := Option.isSome_iff_exists.1 has
    rw [toConditionBy, given] at failed
    obtain ⟨child, member, inChild⟩ := exists_of_mapM_toClause_eq_error (error_of_map failed)
    exact .inr ⟨child, .any given member, inChild⟩
  | not =>
    obtain ⟨child, given⟩ := Option.isSome_iff_exists.1 has
    rw [toConditionBy, given] at failed
    rcases error_of_bind failed with inChild | ⟨inner, madeChild, refused⟩
    · exact .inr ⟨child, .not given, inChild⟩
    · -- the child is converted, so its one shape tells whether it can be negated
      obtain ⟨notNegatable, rfl⟩ := Condition.negate_eq_error_iff.1 refused
      have childOneShape := shapeCount_eq_one_iff.1 (shapeCount_of_toCondition madeChild)
      rw [(isFormOf_of_toCondition madeChild).isNegatable_iff childOneShape, not_or,
        Bool.not_eq_true, Bool.not_eq_true] at notNegatable
      exact .inl ⟨child, given, notNegatable⟩
  | reference =>
    obtain ⟨rule, given⟩ := Option.isSome_iff_exists.1 has
    rw [toConditionBy, given] at failed
    obtain ⟨rfl, rfl⟩ := toReference_eq_error_iff.1 failed
    exact .inl given
  | leaf =>
    obtain ⟨rfl, incomplete⟩ := fault_of_toLeaf failed
    exact .inl ⟨has, incomplete⟩

/-- A specification is refused for a fault that one of its nodes has. -/
theorem exists_hasFault_of_toCondition
    (failed : spec.toCondition = .error fault) :
    ∃ node, spec.HasNode node ∧ node.HasFault fault := by
  induction spec with
  | step spec ofAll ofAny ofNot =>
    rcases hasFault_or_exists_of_toCondition failed with itself | ⟨child, encloses, inChild⟩
    · exact ⟨spec, .refl, itself⟩
    · have inside : ∃ node, child.HasNode node ∧ node.HasFault fault := by
        cases encloses with
        | all given member => exact ofAll _ given child member inChild
        | any given member => exact ofAny _ given child member inChild
        | not given => exact ofNot child given inChild
      obtain ⟨node, isNode, hasFault⟩ := inside
      exact ⟨node, .head encloses isNode, hasFault⟩

/-- Exactly the specifications that follow the grammar are converted. -/
theorem exists_toCondition_iff :
    (∃ condition, spec.toCondition = .ok condition) ↔ spec.IsGrammatical := by
  constructor
  · rintro ⟨condition, made⟩
    exact isGrammatical_of_toCondition made
  · intro grammatical
    cases converted : spec.toCondition with
    | ok condition => exact ⟨condition, rfl⟩
    | error fault =>
      obtain ⟨node, isNode, hasFault⟩ := exists_hasFault_of_toCondition converted
      exact absurd (grammatical node isNode) hasFault.not_isSound

/-- A specification that follows the grammar is converted to the condition of which it is the
form. -/
theorem IsFormOf.toCondition
    (isForm : spec.IsFormOf condition)
    (grammatical : spec.IsGrammatical) :
    spec.toCondition = .ok condition := by
  induction isForm with
  | @all spec children clauses given labelled isForm inductionHypothesis =>
    obtain ⟨sound, inside⟩ := isGrammatical_iff.1 grammatical
    have converted : children.mapM toClause = .ok clauses :=
      mapM_toClause_eq_ok_iff.2 ⟨labelled, fun pair inZip => inductionHypothesis pair inZip
        (inside pair.1 (.all given (List.of_mem_zip inZip).1))⟩
    rw [toCondition_eq_toConditionBy sound.oneShape (IsFormOf.all given labelled isForm).has,
      Condition.shape, toConditionBy, given]
    exact congrArg (Except.map Condition.all) converted
  | @any spec children clauses given labelled isForm inductionHypothesis =>
    obtain ⟨sound, inside⟩ := isGrammatical_iff.1 grammatical
    have converted : children.mapM toClause = .ok clauses :=
      mapM_toClause_eq_ok_iff.2 ⟨labelled, fun pair inZip => inductionHypothesis pair inZip
        (inside pair.1 (.any given (List.of_mem_zip inZip).1))⟩
    rw [toCondition_eq_toConditionBy sound.oneShape (IsFormOf.any given labelled isForm).has,
      Condition.shape, toConditionBy, given]
    exact congrArg (Except.map Condition.any) converted
  | @not spec child condition given isForm inductionHypothesis =>
    obtain ⟨sound, inside⟩ := isGrammatical_iff.1 grammatical
    have childGrammatical := inside child (.not given)
    have isNegatable : condition.IsNegatable :=
      (isForm.isNegatable_iff (childGrammatical child .refl).oneShape).2
        (sound.negatable child given)
    rw [toCondition_eq_toConditionBy sound.oneShape (IsFormOf.not given isForm).has,
      Condition.shape, toConditionBy, given]
    exact bind_eq_ok_iff.2 ⟨condition, inductionHypothesis childGrammatical,
      Condition.negate_eq_ok_iff.2 ⟨isNegatable, rfl⟩⟩
  | @reference spec rule given =>
    have sound := grammatical spec .refl
    rw [toCondition_eq_toConditionBy sound.oneShape (IsFormOf.reference given).has,
      Condition.shape, toConditionBy, given]
    exact toReference_eq_ok_iff.2 ⟨fun unnamed => sound.named (unnamed ▸ given), rfl⟩
  | @leaf spec comparison isFact isOperator isPath isValue =>
    have sound := grammatical spec .refl
    have has := (IsFormOf.leaf isFact isOperator isPath isValue).has
    obtain ⟨fact, operator, named, namedOperator, factNamed, operatorNamed⟩ := sound.complete has
    obtain ⟨comparisonFact, path, comparisonOperator, value⟩ := comparison
    obtain rfl : fact = comparisonFact := Option.some.inj (named.symm.trans isFact)
    obtain rfl : operator = comparisonOperator :=
      Option.some.inj (namedOperator.symm.trans isOperator)
    obtain rfl : path = spec.path := isPath
    obtain rfl : value = spec.value.getD .null := isValue
    rw [toCondition_eq_toConditionBy sound.oneShape has, Condition.shape, toConditionBy]
    exact toLeaf_eq_ok_iff.2 ⟨fact, operator, named, namedOperator, factNamed, operatorNamed, rfl⟩

/-- Exactly the specifications that follow the grammar at every node are converted, each to
the condition of which it is the form. Any other one is refused as an invalid condition, for a
fault that one of its nodes has. -/
theorem converted_by_grammar (spec : ConditionSpec) :
    ((∃ condition, spec.toCondition = .ok condition) ↔ spec.IsGrammatical) ∧
    (∀ condition, spec.toCondition = .ok condition ↔
      spec.IsGrammatical ∧ spec.IsFormOf condition) ∧
    (¬spec.IsGrammatical → ∃ fault,
      spec.toCondition.mapError Error.invalidCondition = .error (.invalidCondition fault) ∧
        ∃ node, spec.HasNode node ∧ node.HasFault fault) := by
  refine ⟨exists_toCondition_iff, ?converted, ?refused⟩
  case converted =>
    intro condition
    constructor
    · intro made
      exact ⟨isGrammatical_of_toCondition made, isFormOf_of_toCondition made⟩
    · rintro ⟨grammatical, isForm⟩
      exact isForm.toCondition grammatical
  case refused =>
    intro ungrammatical
    cases converted : spec.toCondition with
    | ok condition => exact absurd (isGrammatical_of_toCondition converted) ungrammatical
    | error fault => exact ⟨fault, rfl, exists_hasFault_of_toCondition converted⟩

end ConditionSpec
end Verdict
