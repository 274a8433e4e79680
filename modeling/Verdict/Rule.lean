import Verdict.Condition.Spec

/-!
# Rules

A rule has a name, a condition, the event it gives out when the condition holds
and the event it gives out when it does not. The latter is, unless another one
is given, an event of the name of the rule.

A rule has a name and its event a type; both are checked when it is made.
-/

namespace Verdict

/-- A named condition with the events of its two outcomes. -/
structure Rule where
  name : String
  condition : Condition
  event : Event
  failureEvent : Event

namespace Rule

/-- A rule whose failure event has the type of its name. -/
def make (name : String) (condition : Condition) (event : Event) : Except RuleFault Rule :=
  if name.isEmpty then .error .unnamed
  else if event.type.isEmpty then .error (.noEvent name)
  else .ok { name, condition, event, failureEvent := { type := name } }

/-- The rule with another failure event. -/
def withFailureEvent (rule : Rule) (failureEvent : Event) : Rule :=
  { rule with failureEvent }

/-- The rules to which a rule refers, in order. -/
def references (rule : Rule) : List String :=
  rule.condition.references

/-- The written form of a rule. -/
def toJson (rule : Rule) : Json :=
  .object [
    ("name", .string rule.name),
    ("conditions", rule.condition.toJson),
    ("event", rule.event.toJson),
    ("failureEvent", rule.failureEvent.toJson)]

end Rule

end Verdict
