import Verdict.Comparison
import Verdict.Proofs.Rounding

/-!
# The order of values

Integers are compared exactly, over the whole range that is admitted: two integers that share
no 64-bit range have different signs, and rounding keeps the sign. A double is compared with
a number by rounding the number.

The comparisons chain like those of a total preorder, for strings and for booleans always,
and for numbers as long as no double stands beside two integers that are rounded to it. Such
integers are each as large as the double, and still one is below the other.
-/

namespace Verdict
namespace Number

variable {x y : Int} {xRange : InRange x} {yRange : InRange y}

/-! ## Integers and doubles -/

theorem rank_ofInt_lt
    (negative : x < 0)
    (notNegative : 0 ≤ y) :
    (Binary64.ofInt x).rank < (Binary64.ofInt y).rank := by
  have below := Binary64.rank_ofInt_neg negative
  have zero : (Binary64.ofInt 0).rank = 0 := by decide
  have above := Binary64.rank_ofInt_mono notNegative
  omega

/-- Integers are compared exactly. -/
theorem order_integers : (integer x xRange).order (integer y yRange) = compare x y := by
  rw [order]
  split
  case isTrue => rfl
  case isFalse apart =>
    -- one of the two is negative and the other one is not
    simp only [shareRange, Bool.or_eq_true, Bool.and_eq_true, decide_eq_true_eq] at apart
    rw [toBinary64, toBinary64, Binary64.order]
    rcases Int.lt_or_le x 0 with negative | notNegative
    · have less : x < y := by omega
      rw [Int.compare_eq_lt.2 less, Int.compare_eq_lt]
      exact rank_ofInt_lt negative (by omega)
    · have greater : y < x := by omega
      rw [Int.compare_eq_gt.2 greater, Int.compare_eq_gt]
      exact rank_ofInt_lt (by omega) notNegative

/-- The place of a number in the order of the reals, once it is rounded. -/
def rank (number : Number) : Int :=
  number.toBinary64.rank

@[simp] theorem rank_integer : (integer x xRange).rank = (Binary64.ofInt x).rank :=
  rfl

@[simp] theorem rank_double (double : Binary64) : (Number.double double).rank = double.rank :=
  rfl

theorem order_double_left
    (double : Binary64)
    (right : Number) :
    (Number.double double).order right = compare double.rank right.rank := by
  cases right <;> rfl

theorem order_double_right
    (left : Number)
    (double : Binary64) :
    left.order (.double double) = compare left.rank double.rank := by
  cases left <;> rfl

end Number

/-! ## Comparisons of integers -/

namespace Operator

variable {operator : Operator} {fact expected : Json} {ordering : Ordering}

/-- An operator of order answers for every two values that have an order. -/
theorem compareOrdered_of_order?
    (ordered : fact.order? expected = some ordering) :
    operator.compareOrdered fact expected = .ok (operator.accepts ordering) := by
  rw [compareOrdered, ordered]

theorem accepts_lessThan (x y : Int) :
    lessThan.accepts (Ord.compare x y) = decide (x < y) := by
  rw [Bool.eq_iff_iff, decide_eq_true_iff, accepts, Ordering.isLT_iff_eq_lt, Int.compare_eq_lt]

theorem accepts_lessThanInclusive (x y : Int) :
    lessThanInclusive.accepts (Ord.compare x y) = decide (x ≤ y) := by
  rw [Bool.eq_iff_iff, decide_eq_true_iff, accepts, Int.isLE_compare]

theorem accepts_greaterThan (x y : Int) :
    greaterThan.accepts (Ord.compare x y) = decide (x > y) := by
  rw [Bool.eq_iff_iff, decide_eq_true_iff, accepts, Ordering.isGT_iff_eq_gt, Int.compare_eq_gt]

theorem accepts_greaterThanInclusive (x y : Int) :
    greaterThanInclusive.accepts (Ord.compare x y) = decide (x ≥ y) := by
  rw [Bool.eq_iff_iff, decide_eq_true_iff, accepts, Int.isGE_compare]

theorem compareOrdered_integers
    {x y : Int}
    (xRange : Number.InRange x)
    (yRange : Number.InRange y) :
    operator.compareOrdered (.number (.integer x xRange)) (.number (.integer y yRange)) =
      .ok (operator.accepts (Ord.compare x y)) :=
  compareOrdered_of_order? (congrArg some Number.order_integers)

/-- Every comparison of two integers of the admitted range has the answer of the integers
themselves, also where they share no 64-bit range. -/
theorem evaluate_integers
    {x y : Int}
    (xRange : Number.InRange x)
    (yRange : Number.InRange y) :
    lessThan.evaluate (some (.number (.integer x xRange))) (.number (.integer y yRange)) =
      .ok (decide (x < y)) ∧
    lessThanInclusive.evaluate (some (.number (.integer x xRange)))
      (.number (.integer y yRange)) = .ok (decide (x ≤ y)) ∧
    greaterThan.evaluate (some (.number (.integer x xRange))) (.number (.integer y yRange)) =
      .ok (decide (x > y)) ∧
    greaterThanInclusive.evaluate (some (.number (.integer x xRange)))
      (.number (.integer y yRange)) = .ok (decide (x ≥ y)) ∧
    equal.evaluate (some (.number (.integer x xRange))) (.number (.integer y yRange)) =
      .ok (decide (x = y)) := by
  have ordered : ∀ operator : Operator, operator.compareOrdered (.number (.integer x xRange))
      (.number (.integer y yRange)) = .ok (operator.accepts (Ord.compare x y)) :=
    fun _ => compareOrdered_integers xRange yRange
  refine ⟨(ordered lessThan).trans ?below, (ordered lessThanInclusive).trans ?atMost,
    (ordered greaterThan).trans ?above, (ordered greaterThanInclusive).trans ?atLeast, rfl⟩
  case below => rw [accepts_lessThan]
  case atMost => rw [accepts_lessThanInclusive]
  case above => rw [accepts_greaterThan]
  case atLeast => rw [accepts_greaterThanInclusive]

/-- A negative integer is compared with one beyond the signed range. -/
theorem evaluate_across_ranges :
    Number.InRange (-1) ∧ Number.InRange 0x8000000000000000 ∧
      lessThan.evaluate (some (.number (.integer (-1) (by decide))))
        (.number (.integer 0x8000000000000000 (by decide))) = .ok true := by
  have less := (evaluate_integers (x := -1) (y := 0x8000000000000000) (by decide) (by decide)).1
  exact ⟨by decide, by decide, less⟩

end Operator

/-! ## Chains of comparisons -/

namespace Json

/-- One value is at most another one, as the operator for that answers. -/
def IsAtMost (left right : Json) : Prop :=
  Operator.lessThanInclusive.evaluate (some left) right = .ok true

/-- One value is below another one, as the operator for that answers. -/
def IsBelow (left right : Json) : Prop :=
  Operator.lessThan.evaluate (some left) right = .ok true

/-- A double to which two integers are rounded, the first one below the second. -/
inductive Merges : Json → Json → Json → Prop
  | intro {double : Binary64} {lesser greater : Int}
    {lesserRange : Number.InRange lesser} {greaterRange : Number.InRange greater} :
    lesser < greater →
      (Binary64.ofInt lesser).same double = true →
      (Binary64.ofInt greater).same double = true →
      Merges (.number (.double double)) (.number (.integer lesser lesserRange))
        (.number (.integer greater greaterRange))

variable {left right first second third : Json} {ordering : Ordering}

theorem Merges.exists_number (merges : first.Merges second third) :
    ∃ number, first = .number number := by
  cases merges
  exact ⟨_, rfl⟩

theorem isAtMost_iff (ordered : left.order? right = some ordering) :
    left.IsAtMost right ↔ ordering.isLE = true := by
  have answered : Operator.lessThanInclusive.compareOrdered left right = .ok ordering.isLE :=
    Operator.compareOrdered_of_order? ordered
  exact ⟨fun holds => Except.ok.inj (answered.symm.trans holds),
    fun isLE => answered.trans (congrArg _ isLE)⟩

theorem isBelow_iff (ordered : left.order? right = some ordering) :
    left.IsBelow right ↔ ordering.isLT = true := by
  have answered : Operator.lessThan.compareOrdered left right = .ok ordering.isLT :=
    Operator.compareOrdered_of_order? ordered
  exact ⟨fun holds => Except.ok.inj (answered.symm.trans holds),
    fun isLT => answered.trans (congrArg _ isLT)⟩

/-- Only two numbers, two strings or two booleans are compared. -/
theorem IsAtMost.cases (isAtMost : left.IsAtMost right) :
    (∃ a b, left = .number a ∧ right = .number b) ∨
      (∃ a b, left = .string a ∧ right = .string b) ∨
      ∃ a b, left = .boolean a ∧ right = .boolean b := by
  cases ordered : left.order? right with
  | none =>
    have refused : Operator.lessThanInclusive.evaluate (some left) right =
        .error (.typeMismatch (.incomparable .lessThanInclusive right.kind left.kind)) := by
      change Operator.compareOrdered .lessThanInclusive left right = _
      rw [Operator.compareOrdered, ordered]
    exact nomatch refused.symm.trans isAtMost
  | some ordering =>
    unfold order? at ordered
    split at ordered
    · exact .inl ⟨_, _, rfl, rfl⟩
    · exact .inr (.inl ⟨_, _, rfl, rfl⟩)
    · exact .inr (.inr ⟨_, _, rfl, rfl⟩)
    · exact nomatch ordered

/-! ### Strings and booleans -/

/-- Comparisons chain where values, but no numbers, are ordered like those of a type with a
transitive order. -/
theorem chain_of_transOrd
    {α : Type} [Ord α] [Std.TransOrd α]
    (value : α → Json)
    (noNumber : ∀ a number, value a ≠ .number number)
    (ordered : ∀ a b, (value a).order? (value b) = some (compare a b))
    {a b c : α}
    (begins : (value a).IsAtMost (value b))
    (goesOn : (value b).IsAtMost (value c)) :
    ((value a).IsAtMost (value c) ↔ ¬(value b).Merges (value c) (value a)) ∧
      ((value a).IsBelow (value b) ∨ (value b).IsBelow (value c) →
        ((value a).IsBelow (value c) ↔
          ¬((value c).Merges (value a) (value b) ∨ (value a).Merges (value b) (value c)))) := by
  have noMerge : ∀ a b c, ¬(value a).Merges (value b) (value c) := by
    intro a b c merges
    obtain ⟨number, isNumber⟩ := merges.exists_number
    exact noNumber a number isNumber
  simp only [isAtMost_iff (ordered _ _), isBelow_iff (ordered _ _),
    Ordering.isLT_iff_eq_lt] at begins goesOn ⊢
  refine ⟨iff_of_true (Std.TransOrd.isLE_trans begins goesOn) (noMerge b c a), fun strict =>
    iff_of_true ?_ (not_or.2 ⟨noMerge c a b, noMerge a b c⟩)⟩
  rcases strict with less | less
  · exact Std.TransCmp.lt_of_lt_of_isLE less goesOn
  · exact Std.TransCmp.lt_of_isLE_of_lt begins less

/-! ### Numbers -/

section Numbers

variable {x y : Int} {xRange : Number.InRange x} {yRange : Number.InRange y} {a b c : Number}
  {double : Binary64}

theorem isAtMost_numbers : (number a).IsAtMost (.number b) ↔ (a.order b).isLE = true :=
  isAtMost_iff rfl

theorem isBelow_numbers : (number a).IsBelow (.number b) ↔ a.order b = .lt :=
  (isBelow_iff rfl).trans Ordering.isLT_iff_eq_lt

theorem isAtMost_integers :
    (number (.integer x xRange)).IsAtMost (.number (.integer y yRange)) ↔ x ≤ y := by
  rw [isAtMost_numbers, Number.order_integers, Int.isLE_compare]

theorem isBelow_integers :
    (number (.integer x xRange)).IsBelow (.number (.integer y yRange)) ↔ x < y := by
  rw [isBelow_numbers, Number.order_integers, Int.compare_eq_lt]

theorem isAtMost_double_left :
    (number (.double double)).IsAtMost (.number b) ↔ double.rank ≤ b.rank := by
  rw [isAtMost_numbers, Number.order_double_left, Int.isLE_compare]

theorem isAtMost_double_right :
    (number a).IsAtMost (.number (.double double)) ↔ a.rank ≤ double.rank := by
  rw [isAtMost_numbers, Number.order_double_right, Int.isLE_compare]

theorem isBelow_double_left :
    (number (.double double)).IsBelow (.number b) ↔ double.rank < b.rank := by
  rw [isBelow_numbers, Number.order_double_left, Int.compare_eq_lt]

theorem isBelow_double_right :
    (number a).IsBelow (.number (.double double)) ↔ a.rank < double.rank := by
  rw [isBelow_numbers, Number.order_double_right, Int.compare_eq_lt]

theorem merges_iff :
    (number (.double double)).Merges (.number (.integer x xRange)) (.number (.integer y yRange)) ↔
      x < y ∧ (Binary64.ofInt x).rank = double.rank ∧
        (Binary64.ofInt y).rank = double.rank := by
  constructor
  · rintro ⟨less, same, sameToo⟩
    exact ⟨less, beq_iff_eq.1 same, beq_iff_eq.1 sameToo⟩
  · rintro ⟨less, same, sameToo⟩
    exact .intro less (beq_iff_eq.2 same) (beq_iff_eq.2 sameToo)

@[simp] theorem not_merges_integer : ¬(number (.integer x xRange)).Merges second third :=
  nofun

@[simp] theorem not_merges_double_left : ¬first.Merges (.number (.double double)) third :=
  nofun

@[simp] theorem not_merges_double_right : ¬first.Merges second (.number (.double double)) :=
  nofun

/-- A number that is at most another one is not rounded to a larger double. -/
theorem rank_le_of_isAtMost (isAtMost : (number a).IsAtMost (.number b)) : a.rank ≤ b.rank := by
  cases a with
  | double left => exact isAtMost_double_left.1 isAtMost
  | integer x xRange =>
    cases b with
    | double right => exact isAtMost_double_right.1 isAtMost
    | integer y yRange => exact Binary64.rank_ofInt_mono (isAtMost_integers.1 isAtMost)

/-- A number that is rounded to a smaller double than another one is below it. -/
theorem isBelow_of_rank_lt (less : a.rank < b.rank) : (number a).IsBelow (.number b) := by
  cases a with
  | double left => exact isBelow_double_left.2 less
  | integer x xRange =>
    cases b with
    | double right => exact isBelow_double_right.2 less
    | integer y yRange => exact isBelow_integers.2 (Binary64.lt_of_rank_ofInt_lt less)

/-- Two comparisons of numbers chain, unless the number between them merges the outer ones. -/
theorem isAtMost_number_iff
    (begins : (number a).IsAtMost (.number b))
    (goesOn : (number b).IsAtMost (.number c)) :
    (number a).IsAtMost (.number c) ↔ ¬(number b).Merges (.number c) (.number a) := by
  have firstRounded := rank_le_of_isAtMost begins
  have secondRounded := rank_le_of_isAtMost goesOn
  have rounded : a.rank ≤ c.rank := Int.le_trans firstRounded secondRounded
  cases a with
  | double first => exact iff_of_true (isAtMost_double_left.2 rounded) not_merges_double_right
  | integer x xRange =>
    cases c with
    | double third => exact iff_of_true (isAtMost_double_right.2 rounded) not_merges_double_left
    | integer z zRange =>
      cases b with
      | integer y yRange =>
        rw [isAtMost_integers] at begins goesOn ⊢
        exact iff_of_true (Int.le_trans begins goesOn) not_merges_integer
      | double second =>
        rw [Number.rank_integer, Number.rank_double] at firstRounded
        rw [Number.rank_integer, Number.rank_double] at secondRounded
        rw [isAtMost_integers, merges_iff]
        constructor
        · rintro le ⟨less, _⟩
          omega
        · intro unmerged
          rcases Int.lt_or_le z x with greater | le
          · -- the outer integers are in the other order, but rounding respects it
            have mono := Binary64.rank_ofInt_mono (Int.le_of_lt greater)
            exact absurd ⟨greater, by omega, by omega⟩ unmerged
          · exact le

/-- A chain of two comparisons of numbers is strict if one of them is, unless an outer number
merges the other two. -/
theorem isBelow_number_iff
    (begins : (number a).IsAtMost (.number b))
    (goesOn : (number b).IsAtMost (.number c))
    (strict : (number a).IsBelow (.number b) ∨ (number b).IsBelow (.number c)) :
    (number a).IsBelow (.number c) ↔
      ¬((number c).Merges (.number a) (.number b) ∨
        (number a).Merges (.number b) (.number c)) := by
  have firstRounded := rank_le_of_isAtMost begins
  have secondRounded := rank_le_of_isAtMost goesOn
  cases b with
  | double second =>
    rw [isBelow_double_right, isBelow_double_left] at strict
    rw [Number.rank_double] at firstRounded secondRounded
    have less : a.rank < c.rank := by omega
    exact iff_of_true (isBelow_of_rank_lt less) (by simp)
  | integer y yRange =>
    cases a with
    | double first =>
      cases c with
      | double third =>
        simp only [isBelow_double_left, isBelow_double_right, Number.rank_integer,
          Number.rank_double] at firstRounded secondRounded strict
        have less : first.rank < third.rank := by omega
        exact iff_of_true (isBelow_double_left.2 less) (by simp)
      | integer z zRange =>
        simp only [isBelow_double_left, isBelow_integers, merges_iff, not_merges_integer, false_or,
          Number.rank_integer, Number.rank_double] at firstRounded secondRounded strict ⊢
        omega
    | integer x xRange =>
      cases c with
      | double third =>
        simp only [isBelow_double_right, isBelow_integers, merges_iff, not_merges_integer, or_false,
          Number.rank_integer, Number.rank_double] at firstRounded secondRounded strict ⊢
        omega
      | integer z zRange =>
        rw [isAtMost_integers] at begins goesOn
        rw [isBelow_integers, isBelow_integers] at strict
        have less : x < z := by omega
        exact iff_of_true (isBelow_integers.2 less) (by simp)

end Numbers

/-! ### All values -/

/-- Two comparisons chain like those of a total preorder, and the chain is strict if one of
them is. The exceptions are exactly those where one of the three values is a double and the
other two are different integers that are rounded to it. As the second value, such a double
is reached from the larger integer and leads to the smaller one; as the first or the third
value, it is no further away from one of them than from the other. -/
theorem chain_of_isAtMost
    (begins : first.IsAtMost second)
    (goesOn : second.IsAtMost third) :
    (first.IsAtMost third ↔ ¬second.Merges third first) ∧
      (first.IsBelow second ∨ second.IsBelow third →
        (first.IsBelow third ↔ ¬(third.Merges first second ∨ first.Merges second third))) := by
  rcases begins.cases with ⟨a, b, rfl, rfl⟩ | ⟨a, b, rfl, rfl⟩ | ⟨a, b, rfl, rfl⟩
  · obtain ⟨c, rfl⟩ : ∃ c, third = .number c := by simpa using goesOn.cases
    exact ⟨isAtMost_number_iff begins goesOn, isBelow_number_iff begins goesOn⟩
  · obtain ⟨c, rfl⟩ : ∃ c, third = .string c := by simpa using goesOn.cases
    exact chain_of_transOrd .string (by simp) (fun _ _ => rfl) begins goesOn
  · obtain ⟨c, rfl⟩ : ∃ c, third = .boolean c := by simpa using goesOn.cases
    exact chain_of_transOrd .boolean (by simp) (fun _ _ => rfl) begins goesOn

/-- The chain from a negative integer over one that fits no signed range to the double to which
that one is rounded up. -/
theorem chain_to_double :
    (number (.integer (-1) (by decide))).IsAtMost
        (.number (.integer 0xffffffffffffffff (by decide))) ∧
      (number (.integer 0xffffffffffffffff (by decide))).IsAtMost
        (.number (.double (.ofInt 0x10000000000000000))) ∧
      ((number (.integer (-1) (by decide))).IsAtMost
          (.number (.double (.ofInt 0x10000000000000000))) ↔
        ¬(number (.integer 0xffffffffffffffff (by decide))).Merges
          (.number (.double (.ofInt 0x10000000000000000)))
          (.number (.integer (-1) (by decide)))) := by
  have begins : (number (.integer (-1) (by decide))).IsAtMost
      (.number (.integer 0xffffffffffffffff (by decide))) :=
    isAtMost_integers.2 (by decide)
  have goesOn : (number (.integer 0xffffffffffffffff (by decide))).IsAtMost
      (.number (.double (.ofInt 0x10000000000000000))) :=
    isAtMost_double_right.2 (Binary64.rank_ofInt_mono (by decide))
  exact ⟨begins, goesOn, (chain_of_isAtMost begins goesOn).1⟩

/-- Comparisons of numbers do not always chain: an odd integer is at most the double to which
it is rounded, which is at most the integer below, and it is not at most that integer. -/
theorem not_forall_isAtMost_trans :
    ¬∀ a b c : Number,
      (number a).IsAtMost (.number b) → (number b).IsAtMost (.number c) →
        (number a).IsAtMost (.number c) ∧
          ((number a).IsBelow (.number b) ∨ (number b).IsBelow (.number c) →
            (number a).IsBelow (.number c)) := by
  intro claimed
  have atMost := (claimed (.integer 9007199254740993 (by decide))
    (.double (.ofInt 9007199254740992)) (.integer 9007199254740992 (by decide))
    (isAtMost_double_right.2 (by decide)) (isAtMost_double_left.2 (by decide))).1
  exact absurd (isAtMost_integers.1 atMost) (by decide)

end Json

end Verdict
