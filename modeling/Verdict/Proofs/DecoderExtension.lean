import Mathlib.Data.List.Forall2
import Verdict.Proofs.Extension
import Verdict.Rule.Definition

/-!
# Decoders and what follows

A decoder reads from the front of a text what it reads where more follows, and what one reads
that may open fewer brackets is read by one that may open more. So a definition that stands
alone is the one that an array of it alone holds.
-/

namespace Verdict

namespace Decoder

variable {α β σ : Type} {tail : List Char}

/-- Whatever a decoder reads from a text is what another one reads where more follows. -/
def Extends (tail : List Char) (lower higher : Decoder α) : Prop :=
  Reader.Extends tail lower.read higher.read

theorem Extends.map
    {lower higher : Decoder α}
    (follows : Extends tail lower higher)
    (convert : α → β) :
    Extends tail (lower.map convert) (higher.map convert) :=
  Reader.Extends.map follows convert

/-- What may be read inside of a bracket grows with the number of brackets that may be open, if
its own content does. -/
theorem insideExtends_inside
    {related : α → α → Prop}
    {content : Nat → α}
    {lower higher : Nat}
    (less : lower ≤ higher)
    (follows : ∀ {lower higher : Nat}, lower ≤ higher → related (content lower) (content higher)) :
    InsideExtends related (inside content lower) (inside content higher) := by
  cases lower with
  | zero => exact insideExtends_none
  | succ lower =>
    cases higher with
    | zero => exact absurd less (Nat.not_succ_le_zero lower)
    | succ higher =>
      rintro _ ⟨⟩
      exact ⟨_, rfl, follows (Nat.le_of_succ_le_succ less)⟩

/-- A string is decoded alike whatever stands behind it. -/
theorem extends_string : Extends tail string string := by
  simp only [Decoder.Extends, string]
  apply Reader.Extends.afterBlanks
  intro first rest
  by_cases isQuote : first = '"'
  · subst isQuote
    apply (Quote.extends_read rest).bind
    rintro _ _ ⟨text, rest⟩
    exact .ok (.intro _ _ _ _)
  · simp only [List.cons.injEq, isQuote, false_and, imp_self, implies_true]
    exact Reader.unexpected_fails _

/-- An object of any keys is decoded alike where more follows, if each of its values is. -/
theorem extends_dictionary
    {lower higher : Option (Unit → Decoder Json)}
    (follows : InsideExtends (Extends tail) lower higher) :
    Extends tail (dictionary lower) (dictionary higher) := by
  simp only [Decoder.Extends, dictionary]
  apply Reader.Extends.afterBlanks
  intro first rest
  by_cases isCurly : first = '\x7b'
  · subst isCurly
    cases lower with
    | none => exact .error _
    | some content =>
      obtain ⟨other, rfl, contentFollows⟩ := follows content rfl
      have stepFollows : ∀ entries : Dictionary Json, Reader.StepExtends tail
          (fun key => .ok ((content ()).read.map (entries.insert key)))
          (fun key => .ok ((other ()).read.map (entries.insert key))) :=
        fun entries key => .ok (Reader.Extends.map contentFollows _)
      apply (Reader.extends_members stepFollows ∅ rest).bind
      rintro _ _ ⟨entries, rest⟩
      exact .ok (.intro _ _ _ _)
  · simp only [List.cons.injEq, isCurly, false_and, imp_self, implies_true]
    exact Reader.unexpected_fails _

/-- A list is decoded alike where more follows, if each of its items is. -/
theorem extends_list
    {lower higher : Option (Unit → Decoder α)}
    (follows : InsideExtends (Extends tail) lower higher) :
    Extends tail (list lower) (list higher) := by
  simp only [Decoder.Extends, list]
  apply Reader.Extends.afterBlanks
  intro first rest
  by_cases isSquare : first = '['
  · subst isSquare
    cases lower with
    | none => exact .error _
    | some content =>
      obtain ⟨other, rfl, contentFollows⟩ := follows content rfl
      apply (Reader.extends_items contentFollows rest).bind
      rintro _ _ ⟨items, rest⟩
      exact .ok (.intro _ _ _ _)
  · simp only [List.cons.injEq, isSquare, false_and, imp_self, implies_true]
    exact Reader.unexpected_fails _

/-- A value that may be null is decoded alike where more follows, if it is when it shows. -/
theorem extends_optional
    {lower higher : Decoder α}
    (follows : Extends tail lower higher) :
    Extends tail (optional lower) (optional higher) := by
  simp only [Decoder.Extends, optional]
  apply Reader.Extends.afterBlanks
  intro first rest
  by_cases isNull : first = 'n'
  · subst isNull
    exact extends_literal _ _ ('n' :: rest)
  · simp only [List.cons.injEq, isNull, false_and, imp_self, implies_true]
    exact Reader.Extends.map follows some (first :: rest)

/-! ## Records -/

/-- Fields of the same name, of which one holds what the other one holds. -/
structure Field.Extends (tail : List Char) (lower higher : Field σ) : Prop where
  name : lower.name = higher.name
  isRequired : lower.isRequired = higher.isRequired
  decoder : Decoder.Extends tail lower.decoder higher.decoder

theorem Field.extends_optional
    {lower higher : Decoder α}
    (name : String)
    (follows : Decoder.Extends tail lower higher)
    (put : α → σ → σ) :
    Field.Extends tail (.optional name lower put) (.optional name higher put) :=
  ⟨rfl, rfl, follows.map put⟩

theorem Field.extends_required
    {lower higher : Decoder α}
    (name : String)
    (follows : Decoder.Extends tail lower higher)
    (put : α → σ → σ) :
    Field.Extends tail (.required name lower put) (.required name higher put) :=
  ⟨rfl, rfl, follows.map put⟩

section

variable {lower higher lowerRest higherRest : List (Field σ)} {known : σ} {state : List String × σ}
  (follows : List.Forall₂ (Field.Extends tail) lower higher)

include follows

/-- A search by what two records of fields share finds fields of which one extends the other, or
finds none in either. -/
theorem find?_extends
    {test : Field σ → Bool}
    (same : ∀ lower higher, Field.Extends tail lower higher → test lower = test higher) :
    (lower.find? test = none ∧ higher.find? test = none) ∨
      ∃ lowerField higherField, lower.find? test = some lowerField ∧
        higher.find? test = some higherField ∧ Field.Extends tail lowerField higherField := by
  induction follows with
  | nil => exact .inl ⟨rfl, rfl⟩
  | @cons lowerField higherField lower higher first rest inductionHypothesis =>
    have sameFirst := same lowerField higherField first
    cases isFound : test lowerField with
    | true =>
      rw [isFound] at sameFirst
      exact .inr ⟨lowerField, higherField, List.find?_cons_of_pos isFound,
        List.find?_cons_of_pos sameFirst.symm, first⟩
    | false =>
      rw [isFound] at sameFirst
      rw [List.find?_cons_of_neg (by simp [isFound]),
        List.find?_cons_of_neg (by simp [← sameFirst])]
      exact inductionHypothesis

/-- Which required field an object lacks depends on names only. -/
theorem complete_extends (seen : List String) (known : σ) :
    complete lower seen known = complete higher seen known := by
  unfold complete
  have same : ∀ lower higher : Field σ, Field.Extends tail lower higher →
      (lower.isRequired && !seen.contains lower.name) =
        (higher.isRequired && !seen.contains higher.name) := by
    rintro lower higher ⟨name, isRequired, _⟩
    rw [name, isRequired]
  obtain ⟨noLower, noHigher⟩ | ⟨lowerField, higherField, isLower, isHigher, field⟩ :=
    find?_extends follows same
  · simp only [noLower, noHigher]
  · simp only [isLower, isHigher, field.name]

/-- Which required field an array lacks depends on the number of its items only. -/
theorem completeArray_extends
    (followsRest : List.Forall₂ (Field.Extends tail) lowerRest higherRest)
    (title : String)
    (known : σ) :
    completeArray title lower lowerRest known = completeArray title higher higherRest known := by
  unfold completeArray
  have sameRequired : lowerRest.findIdx? (·.isRequired) = higherRest.findIdx? (·.isRequired) := by
    induction followsRest with
    | nil => rfl
    | cons first rest inductionHypothesis =>
      rw [List.findIdx?_cons, List.findIdx?_cons, first.isRequired, inductionHypothesis]
  rw [sameRequired, follows.length_eq, followsRest.length_eq]

/-- A key leads to the same field in both records, and a key of no field to a value that is passed
over. -/
theorem readMember_extends (closes : Closes tail) (state : List String × σ) :
    Reader.StepExtends tail (readMember lower state) (readMember higher state) := by
  intro name
  unfold readMember Field.find?
  have same : ∀ lower higher : Field σ, Field.Extends tail lower higher →
      (lower.name == name) = (higher.name == name) := by
    rintro lower higher ⟨name, _, _⟩
    rw [name]
  obtain ⟨noLower, noHigher⟩ | ⟨lowerField, higherField, isLower, isHigher, field⟩ :=
    find?_extends follows same
  · simp only [noLower, noHigher]
    exact .ok ((Reader.extends_skip closes).map _)
  · simp only [isLower, isHigher]
    by_cases isSeen : state.1.contains name = true
    · simp only [isSeen, if_true]
      exact .error _
    · simp only [isSeen]
      exact .ok (Reader.Extends.map field.decoder _)

omit follows in
/-- An array that gave all its fields must end, whatever follows it. -/
theorem extends_readEnd (known : σ) : Reader.Extends tail (readEnd known) (readEnd known) := by
  intro text
  unfold readEnd
  obtain isAhead | ⟨first, rest, _, _, isAhead, isLongAhead⟩ := ahead_cases text tail
  · simp only [isAhead]
    exact .error _
  simp only [isAhead, isLongAhead]
  by_cases isEnd : first = ']'
  · subst isEnd
    exact .ok (.intro _ _ _ _)
  by_cases isComma : first = ','
  · subst isComma
    simp only
    split
    · exact .error _
    · exact .error _
  · simp only
    exact .error _

/-- Fields that an array gives in their order are read alike where more follows. -/
theorem extends_readFields
    (followsRest : List.Forall₂ (Field.Extends tail) lowerRest higherRest)
    (title : String)
    (isFirst : Bool)
    (known : σ) :
    Reader.Extends tail (readFields title lower isFirst lowerRest known)
      (readFields title higher isFirst higherRest known) := by
  induction followsRest generalizing isFirst known with
  | nil => exact extends_readEnd known
  | @cons lowerField higherField lowerRest higherRest field rest inductionHypothesis =>
    have onward : ∀ text, SucceedsAs (Parsed.Extends tail)
        (do
          let put ← lowerField.decoder.read text
          let final ← readFields title lower false lowerRest (put.value known) put.rest
          return put.followedBy final)
        (do
          let put ← higherField.decoder.read (text ++ tail)
          let final ← readFields title higher false higherRest (put.value known) put.rest
          return put.followedBy final) := by
      intro text
      apply (field.decoder text).bind
      rintro _ _ ⟨put, others⟩
      apply (inductionHypothesis false (put known) others).bind
      rintro _ _ ⟨final, others⟩
      exact .ok (.intro _ _ _ _)
    -- One field of each reader is opened; the readers of the rest stay as they are.
    conv => arg 2; whnf
    conv => arg 3; whnf
    intro text
    obtain isAhead | ⟨first, others, short, _, isAhead, isLongAhead⟩ := ahead_cases text tail
    · simp only [isAhead]
      exact .error _
    simp only [isAhead, isLongAhead]
    by_cases isEnd : first = ']'
    · subst isEnd
      simp only [completeArray_extends follows (.cons field rest)]
      apply (SucceedsAs.refl _).bind
      rintro known _ rfl
      exact .ok (.intro _ _ _ _)
    by_cases isComma : first = ','
    · subst isComma
      simp only
      cases isFirst with
      | true =>
        simp only [if_true]
        exact onward text
      | false =>
        simp only [Bool.false_eq_true, if_false]
        obtain isNext | ⟨next, after, _, _, isNext, isLongNext⟩ := ahead_cases others tail
        · simp only [isNext]
          exact .error _
        simp only [isNext, isLongNext]
        by_cases isLast : next = ']'
        · subst isLast
          exact .error _
        simp only
        apply (field.decoder others).bind
        rintro _ _ ⟨put, others⟩
        apply (inductionHypothesis false (put known) others).bind
        rintro _ _ ⟨final, others⟩
        exact .ok (.intro _ _ _ _)
    simp only
    cases isFirst with
    | true =>
      simp only [if_true]
      exact onward text
    | false =>
      simp only [Bool.false_eq_true, if_false]
      exact .error _

end

/-- A record is decoded alike from an object or an array, whatever follows, if its fields are. -/
theorem extends_record
    {lower higher : Option (Unit → List (Field σ))}
    (closes : Closes tail)
    (follows : InsideExtends (List.Forall₂ (Field.Extends tail)) lower higher)
    (title : String)
    (initial : σ) :
    Extends tail (record title initial lower) (record title initial higher) := by
  simp only [Decoder.Extends, record]
  apply Reader.Extends.afterBlanks
  intro first rest
  by_cases isSquare : first = '['
  · subst isSquare
    cases lower with
    | none => exact .error _
    | some content =>
      obtain ⟨other, rfl, fields⟩ := follows content rfl
      apply (extends_readFields fields fields title true initial rest).bind
      rintro _ _ ⟨known, rest⟩
      exact .ok (.intro _ _ _ _)
  by_cases isCurly : first = '\x7b'
  · subst isCurly
    cases lower with
    | none => exact .error _
    | some content =>
      obtain ⟨other, rfl, fields⟩ := follows content rfl
      apply (Reader.extends_members (readMember_extends fields closes) ([], initial) rest).bind
      rintro _ _ ⟨state, rest⟩
      simp only [complete_extends fields]
      apply (SucceedsAs.refl _).bind
      rintro known _ rfl
      exact .ok (.intro _ _ _ _)
  cases lower with
  | none =>
    simp only [List.cons.injEq, isSquare, isCurly, false_and, IsEmpty.forall_iff, imp_false,
      not_true_eq_false, implies_true]
    exact Reader.unexpected_fails _
  | some content =>
    simp only [List.cons.injEq, isSquare, isCurly, false_and, Option.some.injEq, imp_false,
      IsEmpty.forall_iff, implies_true]
    exact Reader.unexpected_fails _

end Decoder

/-! ## Definitions -/

variable {tail : List Char} {lower higher : Nat}

open Decoder

theorem Decoder.extends_value
    (closes : Closes tail)
    (less : lower ≤ higher) :
    Decoder.Extends tail (Decoder.value lower) (Decoder.value higher) :=
  Reader.extends_value closes less

/-- An event is decoded alike in front of what closes and within more brackets. -/
theorem Event.extends_decoder
    (closes : Closes tail)
    (less : lower ≤ higher) :
    Decoder.Extends tail (Event.decoder lower) (Event.decoder higher) := by
  apply extends_record closes
  apply insideExtends_inside less
  intro lower higher less
  have params := extends_dictionary (insideExtends_inside less (Decoder.extends_value closes))
  exact .cons (Field.extends_optional _ extends_string _)
    (.cons (Field.extends_optional _ params _) .nil)

namespace ConditionSpec

/-- Each field of a specification extends the one of its name, if its children and its list of
children do. -/
theorem forall₂_fields
    {lowerSpec higherSpec : Decoder ConditionSpec}
    {lowerSpecs higherSpecs : Decoder (List ConditionSpec)}
    (closes : Closes tail)
    (less : lower ≤ higher)
    (specFollows : Decoder.Extends tail lowerSpec higherSpec)
    (specsFollow : Decoder.Extends tail lowerSpecs higherSpecs) :
    List.Forall₂ (Field.Extends tail) (fields lowerSpec lowerSpecs lower)
      (fields higherSpec higherSpecs higher) := by
  have text : Decoder.Extends tail (.optional .string) (.optional .string) :=
    extends_optional extends_string
  have spec := extends_optional specFollows
  have specs := extends_optional specsFollow
  have value := extends_optional (Decoder.extends_value closes less)
  have event := extends_optional (Event.extends_decoder closes less)
  unfold fields
  exact .cons (Field.extends_optional _ text _) <| .cons (Field.extends_optional _ specs _) <|
    .cons (Field.extends_optional _ specs _) <| .cons (Field.extends_optional _ spec _) <|
    .cons (Field.extends_optional _ text _) <| .cons (Field.extends_optional _ text _) <|
    .cons (Field.extends_optional _ text _) <| .cons (Field.extends_optional _ text _) <|
    .cons (Field.extends_optional _ value _) <| .cons (Field.extends_optional _ event _) .nil

/-- A specification and the children of a group are read at one limit by means of each other at
the one below. -/
theorem extends_decoders
    (closes : Closes tail)
    (less : lower ≤ higher) :
    Decoder.Extends tail (decoder lower) (decoder higher) ∧
      Decoder.Extends tail (listDecoder lower) (listDecoder higher) := by
  induction lower generalizing higher with
  | zero =>
    cases higher with
    | zero => exact ⟨extends_record closes insideExtends_none _ _, extends_list insideExtends_none⟩
    | succ higher =>
      exact ⟨extends_record closes insideExtends_none _ _, extends_list insideExtends_none⟩
  | succ lower inductionHypothesis =>
    cases higher with
    | zero => exact absurd less (Nat.not_succ_le_zero lower)
    | succ higher =>
      have less := Nat.le_of_succ_le_succ less
      obtain ⟨specFollows, specsFollow⟩ := inductionHypothesis less
      constructor
      · apply extends_record closes
        rintro _ ⟨⟩
        exact ⟨_, rfl, forall₂_fields closes less specFollows specsFollow⟩
      · apply extends_list
        rintro _ ⟨⟩
        exact ⟨_, rfl, specFollows⟩

end ConditionSpec

/-- A decision is decoded alike in front of what closes and within more brackets. -/
theorem Decision.extends_decoder
    (closes : Closes tail)
    (less : lower ≤ higher) :
    Decoder.Extends tail (Decision.decoder lower) (Decision.decoder higher) := by
  apply extends_record closes
  apply insideExtends_inside less
  intro lower higher less
  have event := Event.extends_decoder closes less
  have conditions := (ConditionSpec.extends_decoders closes less).1
  exact .cons (Field.extends_required _ extends_string _)
    (.cons (Field.extends_required _ event _) (.cons (Field.extends_required _ conditions _) .nil))

/-- A definition is decoded alike in front of what closes and within more brackets. An array of
it alone puts it in one more bracket and behind it the closing one. -/
theorem RuleDefinition.extends_decoder
    (closes : Closes tail)
    (less : lower ≤ higher) :
    Decoder.Extends tail (RuleDefinition.decoder lower) (RuleDefinition.decoder higher) := by
  apply extends_record closes
  apply insideExtends_inside less
  intro lower higher less
  have text : Decoder.Extends tail (.optional .string) (.optional .string) :=
    extends_optional extends_string
  have event := extends_optional (Event.extends_decoder closes less)
  have conditions := extends_optional (ConditionSpec.extends_decoders closes less).1
  have decisions := extends_optional
    (extends_list (insideExtends_inside less (Decision.extends_decoder closes)))
  exact .cons (Field.extends_optional _ text _) (.cons (Field.extends_optional _ event _)
    (.cons (Field.extends_optional _ event _) (.cons (Field.extends_optional _ conditions _)
      (.cons (Field.extends_optional _ decisions _) .nil))))

end Verdict
