import Verdict.Binary64

/-!
# Rounding of integers

The double nearest to an integer is found by one rounding of its first 53 binary digits. This
module shows what the result depends on, and that rounding respects order: of two integers,
the smaller one is never rounded to the larger double. An integer keeps its sign, and only
zero is rounded to zero.
-/

namespace Verdict
namespace Binary64

/-! ## Nearest integers -/

variable {numerator other denominator bound : Nat}

theorem nearest_eq_or (numerator denominator : Nat) :
    nearest numerator denominator = numerator / denominator ∨
      nearest numerator denominator = numerator / denominator + 1 := by
  unfold nearest
  dsimp only
  split
  · exact .inl rfl
  · exact .inr rfl

/-- A quotient is rounded up only if half of the denominator is left over. -/
theorem le_two_mul_mod
    (up : nearest numerator denominator = numerator / denominator + 1) :
    denominator ≤ 2 * (numerator % denominator) := by
  unfold nearest at up
  dsimp only at up
  split at up
  · omega
  · rename_i notDown
    omega

theorem le_nearest
    (positive : 0 < denominator)
    (atLeast : bound * denominator ≤ numerator) :
    bound ≤ nearest numerator denominator := by
  have below : bound ≤ numerator / denominator := (Nat.le_div_iff_mul_le positive).2 atLeast
  rcases nearest_eq_or numerator denominator with down | up
  · exact down ▸ below
  · omega

theorem nearest_le
    (positive : 0 < denominator)
    (atMost : numerator ≤ bound * denominator) :
    nearest numerator denominator ≤ bound := by
  have whole := Nat.div_add_mod numerator denominator
  have above : numerator / denominator ≤ bound :=
    Nat.div_le_of_le_mul (Nat.mul_comm bound denominator ▸ atMost)
  rcases nearest_eq_or numerator denominator with down | up
  · exact down ▸ above
  · -- something is left over, so the quotient is below the bound
    have leftOver := le_two_mul_mod up
    rcases Nat.lt_or_eq_of_le above with less | equal
    · omega
    · rw [equal, Nat.mul_comm] at whole
      omega

theorem nearest_mono
    (le : numerator ≤ other) :
    nearest numerator denominator ≤ nearest other denominator := by
  have quotients : numerator / denominator ≤ other / denominator := Nat.div_le_div_right le
  have whole := Nat.div_add_mod numerator denominator
  have otherWhole := Nat.div_add_mod other denominator
  rcases Nat.lt_or_eq_of_le quotients with less | equal
  · have above := nearest_eq_or numerator denominator
    have below := nearest_eq_or other denominator
    omega
  · -- with the same quotient, what is left over decides on both sides alike
    have remainders : numerator % denominator ≤ other % denominator := by
      rw [equal] at whole
      omega
    unfold nearest
    dsimp only
    rw [equal]
    split <;> split <;> omega

/-! ## The double nearest to an integer -/

theorem shift_le_shift
    {value other : Nat}
    (le : value ≤ other)
    (power : Nat) :
    value <<< power ≤ other <<< power := by
  rw [Nat.shiftLeft_eq, Nat.shiftLeft_eq]
  exact Nat.mul_le_mul_right _ le

theorem one_shift_pos (power : Nat) : 0 < 1 <<< power :=
  Nat.shiftLeft_pos_iff.2 Nat.one_pos

/-- A power of two has 53 digits once it is scaled to the binade. -/
theorem shift_two_pow (power : Nat) :
    (1 <<< power) <<< (52 - power) = binade * 1 <<< (power - 52) := by
  have isPower : binade = 2 ^ 52 := by decide
  rw [Nat.shiftLeft_eq, Nat.shiftLeft_eq, Nat.shiftLeft_eq, Nat.one_mul, Nat.one_mul, isPower,
    ← Nat.pow_add, ← Nat.pow_add]
  congr 1
  omega

/-- A positive natural has at least 53 digits once it is scaled to the binade. -/
theorem binade_mul_le {value : Nat} (positive : 0 < value) :
    binade * 1 <<< (value.log2 - 52) ≤ value <<< (52 - value.log2) := by
  have atLeast : 1 <<< value.log2 ≤ value := by
    rw [Nat.one_shiftLeft]
    exact Nat.log2_self_le (by omega)
  rw [← shift_two_pow]
  exact shift_le_shift atLeast _

/-- A natural has at most 53 digits once it is scaled to the binade. -/
theorem shift_le_binade_mul (value : Nat) :
    value <<< (52 - value.log2) ≤ 2 * binade * 1 <<< (value.log2 - 52) := by
  have atMost : value ≤ 2 * 1 <<< value.log2 := by
    rw [Nat.one_shiftLeft, Nat.mul_comm, ← Nat.pow_succ]
    exact Nat.le_of_lt Nat.lt_log2_self
  rw [Nat.mul_assoc, ← shift_two_pow, Nat.shiftLeft_eq, Nat.shiftLeft_eq, ← Nat.mul_assoc]
  exact Nat.mul_le_mul_right _ atMost

/-- To bring the last of 53 digits to the units, either the digits are shifted up or the units. -/
theorem shifts_of_place (power : Nat) :
    (-((power : Int) - 52)).toNat = 52 - power ∧ ((power : Int) - 52).toNat = power - 52 := by
  omega

/-- The last place of the double nearest to a natural is that of its first 53 digits. -/
theorem lastPlace_one {value : Nat} (positive : 0 < value) :
    lastPlace value 1 = value.log2 - 52 := by
  have atLeast := binade_mul_le positive
  obtain ⟨toLeft, toRight⟩ := shifts_of_place value.log2
  unfold lastPlace
  simp only [show Nat.log2 1 = 0 from by decide, Int.natCast_zero, Int.sub_zero, toLeft, toRight]
  rw [if_neg (Nat.not_lt.2 atLeast)]
  omega

/-- The first 53 digits of a natural, as an integer that is rounded where there are more. -/
def leadingUnits (value : Nat) : Nat :=
  nearest (value <<< (52 - value.log2)) (1 <<< (value.log2 - 52))

theorem binade_le_leadingUnits {value : Nat} (positive : 0 < value) :
    binade ≤ leadingUnits value :=
  le_nearest (one_shift_pos _) (binade_mul_le positive)

theorem leadingUnits_le (value : Nat) : leadingUnits value ≤ 2 * binade :=
  nearest_le (one_shift_pos _) (shift_le_binade_mul value)

/-- The magnitude of the double nearest to a natural, without regard to the finite range. -/
def magnitudeOf (value : Nat) : Nat :=
  if value = 0 then 0 else (value.log2 + 1022) * binade + leadingUnits value

theorem magnitudeOf_pos {value : Nat} (positive : 0 < value) : 0 < magnitudeOf value := by
  have atLeast := binade_le_leadingUnits positive
  rw [magnitudeOf, if_neg (by omega)]
  unfold binade at atLeast ⊢
  omega

/-- A smaller natural is rounded to a smaller magnitude or to the same one. -/
theorem magnitudeOf_mono
    {value other : Nat}
    (le : value ≤ other) :
    magnitudeOf value ≤ magnitudeOf other := by
  rcases Nat.eq_zero_or_pos value with rfl | positive
  · exact Nat.zero_le _
  have logs : value.log2 ≤ other.log2 :=
    (Nat.le_log2 (by omega)).2 (Nat.le_trans (Nat.log2_self_le (by omega)) le)
  rw [magnitudeOf, magnitudeOf, if_neg (by omega), if_neg (by omega)]
  rcases Nat.lt_or_eq_of_le logs with less | equal
  · -- the digits of the smaller one come to the beginning of the next binade at most
    have above := leadingUnits_le value
    have below : binade ≤ leadingUnits other := binade_le_leadingUnits (by omega)
    have places : (value.log2 + 1 + 1022) * binade ≤ (other.log2 + 1022) * binade :=
      Nat.mul_le_mul_right _ (by omega)
    calc (value.log2 + 1022) * binade + leadingUnits value
        ≤ (value.log2 + 1022) * binade + 2 * binade := Nat.add_le_add_left above _
      _ = (value.log2 + 1 + 1022) * binade + binade := by
        simp only [Nat.add_mul]
        omega
      _ ≤ (other.log2 + 1022) * binade + leadingUnits other := Nat.add_le_add places below
  · have units : leadingUnits value ≤ leadingUnits other := by
      unfold leadingUnits
      rw [equal]
      exact nearest_mono (shift_le_shift le _)
    rw [equal]
    exact Nat.add_le_add_left units _

theorem ofQuotient?_one
    (negative : Bool)
    (value : Nat) :
    ofQuotient? negative value 1 =
      if finite : magnitudeOf value < 0x7ff0000000000000 then
        some ⟨negative, magnitudeOf value, finite⟩
      else none := by
  rcases Nat.eq_zero_or_pos value with rfl | positive
  · rfl
  have places : ((value.log2 : Int) - 52 + 1074).toNat = value.log2 + 1022 := by omega
  obtain ⟨toLeft, toRight⟩ := shifts_of_place value.log2
  have isMagnitude : magnitudeOf value =
      (value.log2 + 1022) * binade +
        nearest (value <<< (52 - value.log2)) (1 <<< (value.log2 - 52)) :=
    if_neg (by omega)
  simp only [ofQuotient?, lastPlace_one positive, places, toLeft, toRight, ← isMagnitude,
    if_neg (Nat.ne_of_gt positive)]

/-- The magnitude of the double nearest to an integer; beyond the finite range it is that of
the largest double. -/
theorem magnitude_ofInt (value : Int) :
    (ofInt value).magnitude = min (magnitudeOf value.natAbs) 0x7fefffffffffffff := by
  rw [ofInt, ofQuotient?_one]
  split
  case isTrue finite =>
    have within : magnitudeOf value.natAbs ≤ 0x7fefffffffffffff := by omega
    exact (Nat.min_eq_left within).symm
  case isFalse infinite =>
    have beyond : 0x7fefffffffffffff ≤ magnitudeOf value.natAbs := by omega
    exact (Nat.min_eq_right beyond).symm

theorem negative_ofInt (value : Int) : (ofInt value).negative = decide (value < 0) := by
  rw [ofInt, ofQuotient?_one]
  split <;> rfl

theorem rank_ofInt_of_neg {value : Int} (negative : value < 0) :
    (ofInt value).rank = -(ofInt value).magnitude := by
  rw [rank, if_pos (by simp [negative_ofInt, negative])]

theorem rank_ofInt_of_not_neg {value : Int} (notNegative : ¬value < 0) :
    (ofInt value).rank = (ofInt value).magnitude := by
  rw [rank, if_neg (by simp [negative_ofInt, notNegative])]

theorem magnitude_ofInt_mono
    {value other : Int}
    (le : value.natAbs ≤ other.natAbs) :
    (ofInt value).magnitude ≤ (ofInt other).magnitude := by
  have mono := magnitudeOf_mono le
  rw [magnitude_ofInt, magnitude_ofInt]
  omega

theorem magnitude_ofInt_pos {value : Int} (notZero : value ≠ 0) : 0 < (ofInt value).magnitude := by
  have positive : 0 < magnitudeOf value.natAbs := magnitudeOf_pos (by omega)
  rw [magnitude_ofInt]
  omega

/-- An integer below zero is rounded to a double below zero. -/
theorem rank_ofInt_neg {value : Int} (negative : value < 0) : (ofInt value).rank < 0 := by
  have positive : 0 < (ofInt value).magnitude := magnitude_ofInt_pos (by omega)
  rw [rank_ofInt_of_neg negative]
  omega

/-- Rounding respects order. -/
theorem rank_ofInt_mono
    {value other : Int}
    (le : value ≤ other) :
    (ofInt value).rank ≤ (ofInt other).rank := by
  by_cases otherNegative : other < 0
  · have magnitudes : (ofInt other).magnitude ≤ (ofInt value).magnitude :=
      magnitude_ofInt_mono (by omega)
    rw [rank_ofInt_of_neg (by omega), rank_ofInt_of_neg otherNegative]
    omega
  rw [rank_ofInt_of_not_neg otherNegative]
  by_cases negative : value < 0
  · have below := rank_ofInt_neg negative
    omega
  · have magnitudes : (ofInt value).magnitude ≤ (ofInt other).magnitude :=
      magnitude_ofInt_mono (by omega)
    rw [rank_ofInt_of_not_neg negative]
    omega

theorem lt_of_rank_ofInt_lt
    {value other : Int}
    (less : (ofInt value).rank < (ofInt other).rank) :
    value < other := by
  rcases Int.lt_or_le value other with isLess | notLess
  · exact isLess
  · exact absurd less (Int.not_lt.2 (rank_ofInt_mono notLess))

end Binary64
end Verdict
