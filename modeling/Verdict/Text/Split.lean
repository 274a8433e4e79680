/-!
# Splitting

A text is split at every occurrence of one character into the parts between
them. There is one part more than there are occurrences, and joining the parts
gives the text back.
-/

namespace Verdict
namespace Text

/-- The parts of a text between the occurrences of a character. -/
def splitAt (separator : Char) : List Char → List (List Char)
  | [] => [[]]
  | char :: rest =>
    if char = separator then [] :: splitAt separator rest
    else
      match splitAt separator rest with
      | [] => [[char]]
      | part :: parts => (char :: part) :: parts

theorem splitAt_ne_nil (separator : Char) (text : List Char) : splitAt separator text ≠ [] := by
  cases text with
  | nil => simp [splitAt]
  | cons char rest =>
    unfold splitAt
    split
    · simp
    · split <;> simp

/-- The parts with the separator between them are the text. -/
theorem intercalate_splitAt
    (separator : Char)
    (text : List Char) :
    [separator].intercalate (splitAt separator text) = text := by
  induction text with
  | nil => rfl
  | cons char rest inductionHypothesis =>
    unfold splitAt
    split
    · rename_i equal
      cases parts : splitAt separator rest with
      | nil => exact absurd parts (splitAt_ne_nil separator rest)
      | cons part others =>
        rw [parts] at inductionHypothesis
        rw [List.intercalate_cons_cons, inductionHypothesis, equal]
        rfl
    · split
      · rename_i empty
        exact absurd empty (splitAt_ne_nil separator rest)
      · rename_i part others parts
        rw [parts] at inductionHypothesis
        cases others with
        | nil =>
          rw [List.intercalate_singleton] at inductionHypothesis ⊢
          rw [inductionHypothesis]
        | cons next others =>
          rw [List.intercalate_cons_cons] at inductionHypothesis ⊢
          exact congrArg (char :: ·) inductionHypothesis

/-- The parts of a string between the occurrences of a character. -/
def split (separator : Char) (text : String) : List String :=
  (splitAt separator text.toList).map String.ofList

end Text
end Verdict
