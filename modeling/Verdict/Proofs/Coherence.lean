import Verdict.Proofs.NumberOrder

/-!
# Coherence of the operators

The eight operators go through three different comparisons, each with its own idea of the
operands that it takes. This module shows that their answers fit together for every fact and
every expected value: the four operators of order answer for the same operands and read one
order between them, in both directions, equal values are neither below nor above each other,
and the three operators of membership ask whether a value equals one of several.

Two facts carry this. The order of two values is turned around when they are swapped, also
where an integer is compared with a double, and equality of values goes both ways.
-/

namespace Verdict

/-! ## Order and equality, turned around -/

namespace Number

theorem order_swap (left right : Number) : (left.order right).swap = right.order left := by
  cases left with
  | double left => rw [order_double_left, order_double_right, Int.compare_swap]
  | integer x xRange =>
    cases right with
    | double right => rw [order_double_left, order_double_right, Int.compare_swap]
    | integer y yRange => rw [order_integers, order_integers, Int.compare_swap]

/-- Equal numbers are neither below nor above each other. -/
theorem order_of_same
    {left right : Number}
    (same : left.same right = true) :
    left.order right = .eq := by
  cases left with
  | integer x xRange =>
    cases right with
    | integer y yRange =>
      rw [order_integers, Int.compare_eq_eq]
      exact beq_iff_eq.1 same
    | double right => exact nomatch same
  | double left =>
    cases right with
    | integer y yRange => exact nomatch same
    | double right =>
      rw [order_double_left, Int.compare_eq_eq]
      exact beq_iff_eq.1 same

theorem same_comm (left right : Number) : left.same right = right.same left := by
  cases left <;> cases right <;>
    first
    | rfl
    | exact Bool.beq_comm

end Number

namespace Json

/-- Two values have an order: both are numbers, both are strings or both are booleans. -/
inductive Comparable : Json → Json → Prop
  | numbers (left right : Number) : Comparable (.number left) (.number right)
  | strings (left right : String) : Comparable (.string left) (.string right)
  | booleans (left right : Bool) : Comparable (.boolean left) (.boolean right)

variable {left right : Json} {ordering : Ordering}

theorem Comparable.exists_order? (comparable : left.Comparable right) :
    ∃ ordering, left.order? right = some ordering := by
  cases comparable <;> exact ⟨_, rfl⟩

theorem comparable_of_order? (ordered : left.order? right = some ordering) :
    left.Comparable right := by
  unfold order? at ordered
  split at ordered
  · exact .numbers _ _
  · exact .strings _ _
  · exact .booleans _ _
  · exact nomatch ordered

theorem order?_swap (ordered : left.order? right = some ordering) :
    right.order? left = some ordering.swap := by
  obtain ⟨left, right⟩ | ⟨left, right⟩ | ⟨left, right⟩ := comparable_of_order? ordered
  · rw [← Option.some.inj ordered, Number.order_swap]
    rfl
  · rw [← Option.some.inj ordered, ← Std.OrientedOrd.eq_swap]
    rfl
  · rw [← Option.some.inj ordered, ← Std.OrientedOrd.eq_swap]
    rfl

/-- Equal values that have an order are neither below nor above each other. -/
theorem eq_of_order?_of_same
    (ordered : left.order? right = some ordering)
    (same : left.same right = true) :
    ordering = .eq := by
  obtain ⟨left, right⟩ | ⟨left, right⟩ | ⟨left, right⟩ := comparable_of_order? ordered
  · rw [← Option.some.inj ordered]
    exact Number.order_of_same same
  · rw [← Option.some.inj ordered, eq_of_beq same]
    exact Std.ReflOrd.compare_self
  · rw [← Option.some.inj ordered, eq_of_beq same]
    exact Std.ReflOrd.compare_self

mutual

/-- Equality of values goes both ways. -/
theorem same_comm (left right : Json) : left.same right = right.same left := by
  cases left <;> cases right
  case number.number left right => exact left.same_comm right
  case array.array left right => exact sameItems_comm left right
  case object.object left right => exact sameMembers_comm left right
  case boolean.boolean left right => exact Bool.beq_comm
  case string.string left right => exact Bool.beq_comm
  all_goals rfl

theorem sameItems_comm : ∀ left right : List Json, sameItems left right = sameItems right left
  | [], right => by cases right <;> rfl
  | left :: lefts, [] => rfl
  | left :: lefts, right :: rights => by
    rw [sameItems, sameItems, same_comm left right, sameItems_comm lefts rights]

theorem sameMembers_comm :
    ∀ left right : List (String × Json), sameMembers left right = sameMembers right left
  | [], right => by cases right <;> rfl
  | left :: lefts, [] => rfl
  | (leftKey, left) :: lefts, (rightKey, right) :: rights => by
    rw [sameMembers, sameMembers, Bool.beq_comm, same_comm left right,
      sameMembers_comm lefts rights]

end

theorem isAmong_iff
    {value : Json}
    {items : List Json} :
    value.isAmong items = true ↔ ∃ item ∈ items, value.same item = true := by
  rw [isAmong, List.any_eq_true]
  simp only [same_comm value]

end Json

/-! ## The answers of the operators -/

namespace Operator

variable {fact : Option Json} {expected : Json} {ordering : Ordering}

/-- The operators of order. -/
def ofOrder : List Operator :=
  [.lessThan, .lessThanInclusive, .greaterThan, .greaterThanInclusive]

/-- The operators of order answer whether a fact is below or above an expected value. Those
that are inclusive answer the converse question. -/
structure Orders (fact : Option Json) (expected : Json) (below above : Bool) : Prop where
  lessThan : Operator.lessThan.evaluate fact expected = .ok below
  greaterThan : Operator.greaterThan.evaluate fact expected = .ok above
  lessThanInclusive : Operator.lessThanInclusive.evaluate fact expected = .ok !above
  greaterThanInclusive : Operator.greaterThanInclusive.evaluate fact expected = .ok !below

/-- The answers of the operators for a fact and an expected value fit together. A fact that is
absent counts as null.

Without an order between the two values every operator of order fails. Where there is one, the
fact is not both below and above, swapped values are ordered the other way, and an equal fact
is neither below nor above. Only of a list it is answered whether the fact is a member, namely
when it equals one of the items; what a list contains is what is a member of it. -/
structure Cohere (fact : Option Json) (expected : Json) : Prop where
  unordered : ¬(fact.getD .null).Comparable expected → ∀ operator ∈ ofOrder,
    operator.evaluate fact expected =
      .error (.typeMismatch (.incomparable operator expected.kind (fact.getD .null).kind))
  ordered : (fact.getD .null).Comparable expected → ∃ below above,
    Orders fact expected below above ∧
      Orders (some expected) (fact.getD .null) above below ∧
      ¬(below = true ∧ above = true) ∧
      (equal.evaluate fact expected = .ok true → below = false ∧ above = false)
  unlisted : (∀ items, expected ≠ .array items) →
    member.evaluate fact expected = .error (.typeMismatch (.notList .member expected.kind)) ∧
      notMember.evaluate fact expected =
        .error (.typeMismatch (.notList .notMember expected.kind))
  listed : ∀ items, expected = .array items → ∃ isMember,
    member.evaluate fact expected = .ok isMember ∧
      notMember.evaluate fact expected = .ok !isMember ∧
      (isMember = true ↔ ∃ item ∈ items, equal.evaluate fact item = .ok true)
  contained : ∃ isContained, contains.evaluate fact expected = .ok isContained
  containedInList : ∀ items, fact = some (.array items) →
    contains.evaluate fact expected = member.evaluate (some expected) (.array items)

theorem accepts_converse (ordering : Ordering) :
    lessThanInclusive.accepts ordering = !(greaterThan.accepts ordering) ∧
      greaterThanInclusive.accepts ordering = !(lessThan.accepts ordering) := by
  cases ordering <;> decide

theorem accepts_swap (ordering : Ordering) :
    lessThan.accepts ordering.swap = greaterThan.accepts ordering ∧
      greaterThan.accepts ordering.swap = lessThan.accepts ordering := by
  cases ordering <;> decide

/-- The operators of order read the order of the two values. -/
theorem orders_of_order?
    (ordered : (fact.getD .null).order? expected = some ordering) :
    Orders fact expected (lessThan.accepts ordering) (greaterThan.accepts ordering) := by
  obtain ⟨atMost, atLeast⟩ := accepts_converse ordering
  exact
    { lessThan := compareOrdered_of_order? ordered
      greaterThan := compareOrdered_of_order? ordered
      lessThanInclusive := atMost ▸ compareOrdered_of_order? ordered
      greaterThanInclusive := atLeast ▸ compareOrdered_of_order? ordered }

/-- Without an order between the two values, no operator of order has an answer. -/
theorem evaluate_of_not_comparable
    (incomparable : ¬(fact.getD .null).Comparable expected)
    {operator : Operator}
    (isOfOrder : operator ∈ ofOrder) :
    operator.evaluate fact expected =
      .error (.typeMismatch (.incomparable operator expected.kind (fact.getD .null).kind)) := by
  have refused : operator.compareOrdered (fact.getD .null) expected =
      .error (.typeMismatch (.incomparable operator expected.kind (fact.getD .null).kind)) := by
    unfold compareOrdered
    cases ordered : (fact.getD .null).order? expected with
    | none => rfl
    | some ordering => exact absurd (Json.comparable_of_order? ordered) incomparable
  simp only [ofOrder, List.mem_cons, List.not_mem_nil, or_false] at isOfOrder
  rcases isOfOrder with rfl | rfl | rfl | rfl <;> exact refused

theorem evaluate_equal_eq_ok_iff :
    equal.evaluate fact expected = .ok true ↔ (fact.getD .null).same expected = true :=
  ⟨Except.ok.inj, congrArg _⟩

/-- The answers of the operators fit together, whatever the fact and the expected value are. -/
theorem cohere (fact : Option Json) (expected : Json) : Cohere fact expected where
  unordered := fun incomparable _ => evaluate_of_not_comparable incomparable
  ordered := by
    intro comparable
    obtain ⟨ordering, ordered⟩ := comparable.exists_order?
    obtain ⟨swappedBelow, swappedAbove⟩ := accepts_swap ordering
    have swapped : Orders (some expected) (fact.getD .null) _ _ :=
      orders_of_order? (Json.order?_swap ordered)
    rw [swappedBelow, swappedAbove] at swapped
    refine ⟨_, _, orders_of_order? ordered, swapped, ?apart, ?equal⟩
    case apart => cases ordering <;> decide
    case equal =>
      intro isEqual
      rw [Json.eq_of_order?_of_same ordered (evaluate_equal_eq_ok_iff.1 isEqual)]
      decide
  unlisted := by
    intro noList
    cases expected with
    | array items => exact absurd rfl (noList items)
    | _ => exact ⟨rfl, rfl⟩
  listed := by
    rintro items rfl
    refine ⟨_, rfl, rfl, Json.isAmong_iff.trans ?_⟩
    simp only [evaluate_equal_eq_ok_iff]
  contained := by
    change ∃ isContained, contains.compare (fact.getD .null) expected = .ok isContained
    cases fact.getD .null <;> exact ⟨_, rfl⟩
  containedInList := by
    rintro items rfl
    rfl

end Operator
end Verdict
