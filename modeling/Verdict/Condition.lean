import Verdict.Event
import Verdict.Facts.Path

/-!
# Conditions

A condition is a leaf, which compares one fact, a reference to another rule, a
negation, or a group of clauses of which all or any must hold. A clause is a
condition that may carry a name and an event.

A negation that is built here is over a leaf or a reference, and a leaf names a
fact and an operator. Whether the operator exists shows only when it is used.
-/

namespace Verdict

/-- The comparison of one fact with an expected value. -/
structure Leaf where
  fact : String
  path : Option String := none
  operator : String
  value : Json

mutual

/-- What a rule demands of the facts. -/
inductive Condition where
  | all (clauses : List Clause)
  | any (clauses : List Clause)
  | not (child : Condition)
  | reference (rule : String)
  | leaf (leaf : Leaf)

/-- A condition of a group, with the name and the event that it may carry. -/
structure Clause where
  name : Option String
  event : Option Event
  condition : Condition

end

instance : Inhabited Condition :=
  ⟨.all []⟩

/-- Induction on conditions, with a hypothesis for every clause of a group. -/
@[induction_eliminator]
theorem Condition.induction
    {motive : Condition → Prop}
    (all : ∀ clauses, (∀ clause ∈ clauses, motive clause.condition) → motive (.all clauses))
    (any : ∀ clauses, (∀ clause ∈ clauses, motive clause.condition) → motive (.any clauses))
    (not : ∀ child, motive child → motive (.not child))
    (reference : ∀ rule, motive (.reference rule))
    (leaf : ∀ comparison, motive (.leaf comparison))
    (condition : Condition) :
    motive condition :=
  @Condition.rec motive
    (fun clause => motive clause.condition)
    (fun clauses => ∀ clause ∈ clauses, motive clause.condition)
    all any not reference leaf
    (fun _ _ _ ofCondition => ofCondition)
    nofun
    (fun _ _ ofClause ofRest => List.forall_mem_cons.2 ⟨ofClause, ofRest⟩)
    condition

namespace Leaf

/-- A leaf without a path; the fact and the operator must be named. -/
def make (fact operator : String) (value : Json) : Except ConditionFault Leaf :=
  if fact.isEmpty || operator.isEmpty then .error .incompleteLeaf
  else .ok { fact, operator, value }

/-- The operator that the leaf names. -/
def operator? (leaf : Leaf) : Except Error Operator :=
  match Operator.ofName? leaf.operator with
  | some operator => .ok operator
  | none => .error (.unknownOperator leaf.operator)

/-- What an explanation calls the fact: the last segment of the path, or the
name of the fact if there is no path. -/
def displayName (leaf : Leaf) : String :=
  match leaf.path with
  | some path => Path.lastSegment path
  | none => leaf.fact

/-- Equality of leaves, with that of values for the expected value. -/
def same (left right : Leaf) : Bool :=
  left.fact == right.fact && left.path == right.path && left.operator == right.operator &&
    left.value.same right.value

end Leaf

/-- Equality of events that may be absent. -/
def Event.sameOption : Option Event → Option Event → Bool
  | none, none => true
  | some left, some right => left.same right
  | _, _ => false

namespace Condition

/-- The negation of a leaf or a reference. -/
def negate (child : Condition) : Except ConditionFault Condition :=
  match child with
  | .leaf _ | .reference _ => .ok (.not child)
  | _ => .error .negatedGroup

mutual

/-- The rules to which a condition refers, in order, each as often as it occurs. -/
def references : Condition → List String
  | .all clauses => clauseReferences clauses
  | .any clauses => clauseReferences clauses
  | .not child => child.references
  | .reference rule => [rule]
  | .leaf _ => []

/-- The rules to which clauses refer, in order. -/
def clauseReferences : List Clause → List String
  | [] => []
  | ⟨_, _, condition⟩ :: rest => condition.references ++ clauseReferences rest

end

theorem clauseReferences_eq_flatMap (clauses : List Clause) :
    clauseReferences clauses = clauses.flatMap fun clause => clause.condition.references := by
  induction clauses with
  | nil => rfl
  | cons clause rest inductionHypothesis =>
    cases clause
    simp [clauseReferences, inductionHypothesis]

mutual

/-- Equality of conditions. -/
def same : Condition → Condition → Bool
  | .all left, .all right => sameClauses left right
  | .any left, .any right => sameClauses left right
  | .not left, .not right => same left right
  | .reference left, .reference right => left == right
  | .leaf left, .leaf right => left.same right
  | _, _ => false

/-- Equality of lists of clauses, one by one. -/
def sameClauses : List Clause → List Clause → Bool
  | [], [] => true
  | ⟨leftName, leftEvent, left⟩ :: lefts, ⟨rightName, rightEvent, right⟩ :: rights =>
    leftName == rightName && Event.sameOption leftEvent rightEvent && same left right &&
      sameClauses lefts rights
  | _, _ => false

end

end Condition

/-- A condition that carries neither a name nor an event. -/
def Clause.plain (condition : Condition) : Clause :=
  ⟨none, none, condition⟩

/-- Equality of clauses. -/
def Clause.same (left right : Clause) : Bool :=
  left.name == right.name && Event.sameOption left.event right.event &&
    left.condition.same right.condition

end Verdict
