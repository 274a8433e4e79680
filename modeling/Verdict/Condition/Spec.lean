import Verdict.Condition

/-!
# Condition specifications

A specification is the written form of a condition or a clause: a record of
fields, any of which may be absent. It has one of five shapes, and only a
specification of exactly one shape becomes a condition.

The conversion back gives a specification with the fields of that shape alone.
-/

namespace Verdict

/-- The fields of a written condition. -/
structure ConditionSpec where
  name : Option String := none
  all : Option (List ConditionSpec) := none
  any : Option (List ConditionSpec) := none
  not : Option ConditionSpec := none
  condition : Option String := none
  fact : Option String := none
  path : Option String := none
  operator : Option String := none
  value : Option Json := none
  event : Option Event := none

namespace ConditionSpec

/-- Whether any field of a leaf is present. -/
def isLeaf (spec : ConditionSpec) : Bool :=
  spec.fact.isSome || spec.operator.isSome || spec.path.isSome || spec.value.isSome

/-- The number of the five shapes of which a specification has a field. -/
def shapeCount (spec : ConditionSpec) : Nat :=
  [spec.all.isSome, spec.any.isSome, spec.not.isSome, spec.condition.isSome, spec.isLeaf].count true

/-- Whether no field of any shape is present. -/
def isEmpty (spec : ConditionSpec) : Bool :=
  spec.shapeCount == 0

/-- The leaf of a specification of that shape; a missing value is null. -/
def toLeaf (spec : ConditionSpec) : Except ConditionFault Condition :=
  match spec.fact, spec.operator with
  | some fact, some operator => do
    let leaf ← Leaf.make fact operator (spec.value.getD .null)
    return .leaf { leaf with path := spec.path }
  | _, _ => .error .incompleteLeaf

/-- A reference, which must name a rule. -/
def toReference (rule : String) : Except ConditionFault Condition :=
  if rule.isEmpty then .error .unnamedReference else .ok (.reference rule)

mutual

/-- The condition that a specification describes. -/
def toCondition : ConditionSpec → Except ConditionFault Condition
  | ⟨name, all, any, not, condition, fact, path, operator, value, event⟩ =>
    let spec : ConditionSpec :=
      ⟨name, all, any, not, condition, fact, path, operator, value, event⟩
    match spec.shapeCount with
    | 0 => .error .noShape
    | 1 =>
      match all, any, not, condition with
      | some children, _, _, _ => (toClauses children).map .all
      | none, some children, _, _ => (toClauses children).map .any
      | none, none, some child, _ => child.toCondition.bind Condition.negate
      | none, none, none, some rule => toReference rule
      | none, none, none, none => spec.toLeaf
    | _ => .error .severalShapes

/-- The clauses that specifications describe, in order. -/
def toClauses : List ConditionSpec → Except ConditionFault (List Clause)
  | [] => .ok []
  | spec :: rest => do
    let condition ← spec.toCondition
    let clauses ← toClauses rest
    return ⟨spec.name, spec.event, condition⟩ :: clauses

end

/-- The clause that a specification describes. -/
def toClause (spec : ConditionSpec) : Except ConditionFault Clause :=
  spec.toCondition.map fun condition => ⟨spec.name, spec.event, condition⟩

mutual

/-- The specification of a condition. -/
def ofCondition : Condition → ConditionSpec
  | .all clauses => { all := some (ofClauses clauses) }
  | .any clauses => { any := some (ofClauses clauses) }
  | .not child => { not := some (ofCondition child) }
  | .reference rule => { condition := some rule }
  | .leaf leaf =>
    { fact := some leaf.fact
      path := leaf.path
      operator := some leaf.operator
      value := some leaf.value }

/-- The specifications of clauses, in order. -/
def ofClauses : List Clause → List ConditionSpec
  | [] => []
  | ⟨name, event, condition⟩ :: rest =>
    { ofCondition condition with name, event } :: ofClauses rest

end

/-- The specification of a clause. -/
def ofClause (clause : Clause) : ConditionSpec :=
  { ofCondition clause.condition with name := clause.name, event := clause.event }

mutual

/-- The written form of a specification: the fields that are present, in order. -/
def toJson : ConditionSpec → Json
  | ⟨name, all, any, not, condition, fact, path, operator, value, event⟩ =>
    .ofFields [
      ("name", name.map .string),
      ("all", specsToJson? all),
      ("any", specsToJson? any),
      ("not", specToJson? not),
      ("condition", condition.map .string),
      ("fact", fact.map .string),
      ("path", path.map .string),
      ("operator", operator.map .string),
      ("value", value),
      ("event", event.map Event.toJson)]

/-- The written form of the children of a group, if they are present. -/
def specsToJson? : Option (List ConditionSpec) → Option Json
  | none => none
  | some specs => some (.array (specsToJson specs))

/-- The written form of the child of a negation, if it is present. -/
def specToJson? : Option ConditionSpec → Option Json
  | none => none
  | some spec => some spec.toJson

/-- The written forms of specifications, in order. -/
def specsToJson : List ConditionSpec → List Json
  | [] => []
  | spec :: rest => spec.toJson :: specsToJson rest

end

/-- The fields of a specification, with the decoders of what they hold. -/
def fields (spec : Decoder ConditionSpec) (specs : Decoder (List ConditionSpec))
    (depth : Nat) : List (Decoder.Field ConditionSpec) :=
  [.optional "name" (.optional .string) fun name spec => { spec with name },
    .optional "all" (.optional specs) fun all spec => { spec with all },
    .optional "any" (.optional specs) fun any spec => { spec with any },
    .optional "not" (.optional spec) fun not spec => { spec with not },
    .optional "condition" (.optional .string) fun condition spec => { spec with condition },
    .optional "fact" (.optional .string) fun fact spec => { spec with fact },
    .optional "path" (.optional .string) fun path spec => { spec with path },
    .optional "operator" (.optional .string) fun operator spec => { spec with operator },
    .optional "value" (.optional (.value depth)) fun value spec => { spec with value },
    .optional "event" (.optional (Event.decoder depth)) fun event spec => { spec with event }]

mutual

/-- A specification, all of whose fields may be absent. -/
def decoder : (depth : Nat) → Decoder ConditionSpec
  | 0 => .record "struct ConditionSpec" {} none
  | depth + 1 =>
    .record "struct ConditionSpec" {}
      (some fun _ => fields (decoder depth) (listDecoder depth) depth)

/-- The children of a group. -/
def listDecoder : (depth : Nat) → Decoder (List ConditionSpec)
  | 0 => .list none
  | depth + 1 => .list (some fun _ => decoder depth)

end

end ConditionSpec

/-- A conversion whose fault becomes one of the data. -/
def Decoder.convertSpec {α : Type} (convert : ConditionSpec → Except ConditionFault α)
    (depth : Nat) : Decoder α :=
  (ConditionSpec.decoder depth).tryMap fun spec => (convert spec).mapError .condition

/-- A condition, by its specification. -/
def Condition.decoder : (depth : Nat) → Decoder Condition :=
  Decoder.convertSpec ConditionSpec.toCondition

/-- A clause, by its specification. -/
def Clause.decoder : (depth : Nat) → Decoder Clause :=
  Decoder.convertSpec ConditionSpec.toClause

/-- The written form of a condition. -/
def Condition.toJson (condition : Condition) : Json :=
  (ConditionSpec.ofCondition condition).toJson

/-- The written form of a clause. -/
def Clause.toJson (clause : Clause) : Json :=
  (ConditionSpec.ofClause clause).toJson

end Verdict
