import Verdict.Rule

/-!
# Rule definitions

A definition is the written form of a rule. It gives what decides either as one
condition or as a list of decisions, of which the first one that holds counts:
the decisions become the clauses of a group of which any must hold, each with
its own name and event.

What decides is converted before the name and the event are checked.
-/

namespace Verdict

/-- A condition with the name and the event of one decision. -/
structure Decision where
  name : String
  event : Event
  conditions : ConditionSpec

/-- The fields of a written rule. -/
structure RuleDefinition where
  name : Option String := none
  event : Option Event := none
  failureEvent : Option Event := none
  conditions : Option ConditionSpec := none
  decisions : Option (List Decision) := none

namespace Decision

/-- The clause of a decision. -/
def toClause (decision : Decision) : Except ConditionFault Clause :=
  decision.conditions.toCondition.map fun condition =>
    ⟨some decision.name, some decision.event, condition⟩

/-- The written form of a decision. -/
def toJson (decision : Decision) : Json :=
  .object [
    ("name", .string decision.name),
    ("event", decision.event.toJson),
    ("conditions", decision.conditions.toJson)]

/-- The fields of a decision, all of which must be present. -/
def fields (depth : Nat) : List (Decoder.Field Decision) :=
  [.required "name" .string fun name decision => { decision with name },
    .required "event" (Event.decoder depth) fun event decision => { decision with event },
    .required "conditions" (ConditionSpec.decoder depth)
      fun conditions decision => { decision with conditions }]

/-- A decision. -/
def decoder (depth : Nat) : Decoder Decision :=
  .record "struct Decision" ⟨"", {}, {}⟩ (Decoder.inside fields depth)

end Decision

namespace RuleDefinition

/-- The written form of a definition; a field that is absent is null. -/
def toJson (definition : RuleDefinition) : Json :=
  let orNull : Option Json → Json := (·.getD .null)
  .object [
    ("name", orNull (definition.name.map .string)),
    ("event", orNull (definition.event.map Event.toJson)),
    ("failureEvent", orNull (definition.failureEvent.map Event.toJson)),
    ("conditions", orNull (definition.conditions.map ConditionSpec.toJson)),
    ("decisions", orNull (definition.decisions.map fun decisions =>
      .array (decisions.map Decision.toJson)))]

/-- The fields of a definition, all of which may be absent. -/
def fields (depth : Nat) : List (Decoder.Field RuleDefinition) :=
  [.optional "name" (.optional .string) fun name rule => { rule with name },
    .optional "event" (.optional (Event.decoder depth)) fun event rule => { rule with event },
    .optional "failureEvent" (.optional (Event.decoder depth))
      fun failureEvent rule => { rule with failureEvent },
    .optional "conditions" (.optional (ConditionSpec.decoder depth))
      fun conditions rule => { rule with conditions },
    .optional "decisions" (.optional (.list (Decoder.inside Decision.decoder depth)))
      fun decisions rule => { rule with decisions }]

/-- A definition. -/
def decoder (depth : Nat) : Decoder RuleDefinition :=
  .record "struct RuleDefinition" {} (Decoder.inside fields depth)

/-- Several definitions. -/
def listDecoder (depth : Nat) : Decoder (List RuleDefinition) :=
  .list (Decoder.inside decoder depth)

/-- What decides in a definition. -/
def toCondition (definition : RuleDefinition) : Except Error Condition :=
  let name := definition.name.getD ""
  match definition.conditions, definition.decisions with
  | some spec, none =>
    if spec.isEmpty then .error (.invalidRule (.emptyConditions name))
    else spec.toCondition.mapError .invalidCondition
  | none, some (decision :: others) =>
    (((decision :: others).mapM Decision.toClause).map .any).mapError .invalidCondition
  | none, _ => .error (.invalidRule (.nothingToDecide name))
  | some _, some _ => .error (.invalidRule (.conditionsAndDecisions name))

/-- The rule that a definition describes. -/
def toRule (definition : RuleDefinition) : Except Error Rule := do
  let name := definition.name.getD ""
  let condition ← definition.toCondition
  match definition.event with
  | none => .error (.invalidRule (.noEvent name))
  | some event => do
    let rule ← (Rule.make name condition event).mapError .invalidRule
    return match definition.failureEvent with
      | some failureEvent => rule.withFailureEvent failureEvent
      | none => rule

end RuleDefinition

/-- The rule that a text describes. -/
def Rule.ofText (text : String) : Except Error Rule := do
  let definition ← (Decoder.ofText RuleDefinition.decoder text).mapError .json
  definition.toRule

/-- The rule that a value describes. -/
def Rule.ofJson (value : Json) : Except Error Rule := do
  let definition ← (Decoder.ofJson RuleDefinition.decoder value).mapError .json
  definition.toRule

end Verdict
