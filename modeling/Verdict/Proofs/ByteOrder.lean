import Mathlib.Data.String.Basic

/-!
# The order of texts and of their bytes

Texts are ordered by the codes of their characters. In UTF-8 a character with a larger code has
larger bytes, so texts are in the same order as their bytes.
-/

namespace Verdict
namespace Text

/-- The bytes of a text in UTF-8. -/
def bytes (text : String) : List UInt8 :=
  text.toUTF8.data.toList

theorem bytes_ofList (chars : List Char) :
    bytes (String.ofList chars) = chars.flatMap String.utf8EncodeChar := by
  simp [bytes, String.toUTF8, List.utf8Encode, List.data_toByteArray]

/-- The code of a smaller character is below that of a larger one at a byte that both have, so
what stands behind the codes does not count. -/
theorem append_lt_append_of_lt
    {left right : Char}
    (below : left < right)
    (behindLeft behindRight : List UInt8) :
    String.utf8EncodeChar left ++ behindLeft < String.utf8EncodeChar right ++ behindRight := by
  have codes : left.val.toNat < right.val.toNat := below
  have bound : right.val.toNat < 0x110000 := by
    rcases right.valid with low | ⟨_, high⟩
    · exact Nat.lt_trans low (by decide)
    · exact high
  simp only [String.utf8EncodeChar]
  generalize left.val.toNat = lower at codes
  generalize right.val.toNat = upper at codes bound
  have lastByte : lower / 64 < upper / 64 ∨ lower / 64 = upper / 64 ∧ lower % 64 < upper % 64 := by
    omega
  have thirdByte : lower / 64 < upper / 64 →
      lower / 4096 < upper / 4096 ∨
        lower / 4096 = upper / 4096 ∧ lower / 64 % 64 < upper / 64 % 64 := by
    omega
  have secondByte : lower / 4096 < upper / 4096 →
      lower / 262144 < upper / 262144 ∨
        lower / 262144 = upper / 262144 ∧ lower / 4096 % 64 < upper / 4096 % 64 := by
    omega
  have firstByte : upper / 262144 < 5 := by omega
  split_ifs <;> simp (disch := omega) only [List.cons_append, List.nil_append,
    List.cons_lt_cons_iff, UInt8.lt_iff_toNat_lt, ← UInt8.toNat_inj, UInt8.toNat_ofNat',
    Nat.mod_eq_of_lt] <;> omega

theorem flatMap_lt_flatMap
    {left right : List Char}
    (below : left < right) :
    left.flatMap String.utf8EncodeChar < right.flatMap String.utf8EncodeChar := by
  induction left generalizing right with
  | nil =>
    cases right with
    | nil => exact absurd below (List.lt_irrefl _)
    | cons first rest =>
      have shown : String.utf8EncodeChar first ≠ [] := by
        apply List.ne_nil_of_length_pos
        rw [String.length_utf8EncodeChar]
        exact Char.utf8Size_pos first
      obtain ⟨byte, others, isCode⟩ := List.exists_cons_of_ne_nil shown
      rw [List.flatMap_cons, isCode]
      exact List.nil_lt_cons _ _
  | cons first rest inductionHypothesis =>
    cases right with
    | nil => exact absurd below (List.not_lt_nil _)
    | cons other others =>
      rw [List.flatMap_cons, List.flatMap_cons]
      rcases List.cons_lt_cons_iff.1 below with smaller | ⟨rfl, restBelow⟩
      · exact append_lt_append_of_lt smaller _ _
      · exact List.append_left_lt (inductionHypothesis restBelow)

/-- Texts are ordered as their bytes are. -/
theorem lt_iff_bytes_lt (left right : String) : left < right ↔ bytes left < bytes right := by
  have ofBytes : ∀ text : String, bytes text = text.toList.flatMap String.utf8EncodeChar := by
    intro text
    rw [← bytes_ofList, String.ofList_toList]
  rw [ofBytes, ofBytes, String.lt_iff]
  constructor
  · exact flatMap_lt_flatMap
  · intro below
    by_contra notBelow
    rcases List.le_iff_lt_or_eq.1 (List.not_lt.1 notBelow) with above | same
    · exact List.lt_asymm below (flatMap_lt_flatMap above)
    · rw [same] at below
      exact List.lt_irrefl _ below

end Text
end Verdict
