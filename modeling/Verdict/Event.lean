import Verdict.Json.Decoder

/-!
# Events

An event is what a rule gives out: a type and parameters. A rule gives out one
event when it holds and another one when it does not.
-/

namespace Verdict

/-- A type with parameters. -/
structure Event where
  type : String := ""
  params : Dictionary Json := ∅

namespace Event

/-- Adds a parameter, or replaces the value of its key. -/
def withParam (event : Event) (key : String) (value : Json) : Event :=
  { event with params := event.params.insert key value }

/-- Equality of events, with that of values for their parameters. -/
def same (left right : Event) : Bool :=
  left.type == right.type && Json.sameDictionary left.params right.params

/-- The written form of an event. -/
def toJson (event : Event) : Json :=
  .object [("type", .string event.type), ("params", .ofDictionary event.params)]

/-- The fields of an event, with the given number of brackets left to open. -/
def fields (depth : Nat) : List (Decoder.Field Event) :=
  [.optional "type" .string fun type event => { event with type },
    .optional "params" (.dictionary (Decoder.inside Decoder.value depth))
      fun params event => { event with params }]

/-- An event; both fields may be absent. -/
def decoder (depth : Nat) : Decoder Event :=
  .record "struct Event" {} (Decoder.inside fields depth)

end Event

end Verdict
