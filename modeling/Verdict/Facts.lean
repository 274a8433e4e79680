import Verdict.Error
import Verdict.Facts.Path

/-!
# Facts

Facts are named JSON values. A fact that is null counts as absent, though its
name stays present.

A look-up may go on into a fact along a path. That the fact itself is absent is
no error; that the path leads nowhere is one.
-/

namespace Verdict

/-- Named values. -/
structure Facts where
  values : Dictionary Json

namespace Facts

/-- No facts. -/
def empty : Facts :=
  ⟨∅⟩

instance : EmptyCollection Facts :=
  ⟨empty⟩

/-- Adds a fact, or replaces the value of its name. -/
def add (facts : Facts) (name : String) (value : Json) : Facts :=
  ⟨facts.values.insert name value⟩

/-- The facts of a list, of which the last one of each name counts. -/
def ofList (entries : List (String × Json)) : Facts :=
  ⟨.ofList entries⟩

/-- The facts of an object. -/
def ofJson (value : Json) : Except Error Facts :=
  match value with
  | .object members => .ok (ofList members)
  | other => .error (.typeMismatch (.notFacts other.kind))

/-- The value of a fact, unless it is absent or null. -/
def lookup (facts : Facts) (name : String) : Option Json :=
  match facts.values.get? name with
  | some .null => none
  | other => other

/-- The value of a fact, or of the part of it to which a path leads. -/
def get (facts : Facts) (name : String) (path : Option String) : Except Error (Option Json) :=
  match facts.lookup name, path with
  | none, _ => .ok none
  | some value, none => .ok (some value)
  | some value, some path =>
    match Path.follow? value (Path.segments path) with
    | some part => .ok (some part)
    | none => .error (.pathNotFound name path)

/-- Whether a name is present. -/
def contains (facts : Facts) (name : String) : Bool :=
  facts.values.contains name

/-- The number of names. -/
def size (facts : Facts) : Nat :=
  facts.values.size

/-- Whether there are no facts. -/
def isEmpty (facts : Facts) : Bool :=
  facts.size == 0

/-- The facts in the order of their names. -/
def toList (facts : Facts) : List (String × Json) :=
  facts.values.entries

/-- All facts as one object. -/
def snapshot (facts : Facts) : Json :=
  .ofDictionary facts.values

end Facts

end Verdict
