import Verdict.Json.Brackets

/-!
# Readers and what follows

A reader that takes a value from the front of a text takes the same value where more follows,
and leaves that behind what it left before. It need not be the same reader: one that may open
more brackets takes whatever one takes that may open fewer.

What follows is nothing or begins with a closing bracket, so it goes on with no numeral.
-/

namespace Verdict

/-- Whenever an outcome is a value, another one is a related value. -/
def SucceedsAs {ε α β : Type} (related : α → β → Prop) (first : Except ε α)
    (second : Except ε β) : Prop :=
  ∀ value, first = .ok value → ∃ other, second = .ok other ∧ related value other

namespace SucceedsAs

variable {ε α β γ δ : Type} {related : α → β → Prop} {furtherRelated : γ → δ → Prop}
  {first : Except ε α} {second : Except ε β} {value : α} {other : β}

theorem error (error : ε) : SucceedsAs related (.error error) second :=
  nofun

theorem ok (isRelated : related value other) :
    SucceedsAs related (.ok value : Except ε α) (.ok other) := by
  intro found same
  obtain rfl := Except.ok.inj same
  exact ⟨other, rfl, isRelated⟩

theorem refl (first : Except ε α) : SucceedsAs Eq first first :=
  fun value isValue => ⟨value, isValue, rfl⟩

/-- Two computations stay related when each goes on, if what they go on with is related. -/
theorem bind
    {next : α → Except ε γ}
    {furtherNext : β → Except ε δ}
    (succeeds : SucceedsAs related first second)
    (furtherSucceeds : ∀ value other, related value other →
      SucceedsAs furtherRelated (next value) (furtherNext other)) :
    SucceedsAs furtherRelated (first >>= next) (second >>= furtherNext) := by
  intro result isResult
  cases isFirst : first with
  | error found =>
    rw [isFirst] at isResult
    exact nomatch isResult
  | ok value =>
    obtain ⟨other, isSecond, isRelated⟩ := succeeds value isFirst
    rw [isFirst] at isResult
    rw [isSecond]
    exact furtherSucceeds value other isRelated result isResult

theorem map
    {change : α → γ}
    {furtherChange : β → δ}
    (succeeds : SucceedsAs related first second)
    (stays : ∀ value other, related value other →
      furtherRelated (change value) (furtherChange other)) :
    SucceedsAs furtherRelated (first.map change) (second.map furtherChange) := by
  intro result isResult
  cases isFirst : first with
  | error found =>
    rw [isFirst] at isResult
    exact nomatch isResult
  | ok value =>
    obtain ⟨other, isSecond, isRelated⟩ := succeeds value isFirst
    rw [isFirst] at isResult
    obtain rfl := Except.ok.inj isResult
    exact ⟨furtherChange other, by rw [isSecond]; rfl, stays value other isRelated⟩

end SucceedsAs

/-- The same was read from a text and where more follows, which is left. -/
inductive Parsed.Extends {α : Type} {text longer : List Char} (tail : List Char) :
    Parsed α text → Parsed α longer → Prop
  | intro (value : α) (rest : List Char) (shorter : rest.length < text.length)
    (longShorter : (rest ++ tail).length < longer.length) :
    Extends tail ⟨value, rest, shorter⟩ ⟨value, rest ++ tail, longShorter⟩

/-- The same was taken from a text and where more follows, which is left. -/
inductive Taken.Extends {α : Type} {text longer : List Char} (tail : List Char) :
    Taken α text → Taken α longer → Prop
  | intro (value : α) (rest : List Char) (within : rest.length ≤ text.length)
    (longWithin : (rest ++ tail).length ≤ longer.length) :
    Extends tail ⟨value, rest, within⟩ ⟨value, rest ++ tail, longWithin⟩

/-- Whatever a reader takes from a text is what another one takes where more follows. -/
def Reader.Extends {α : Type} (tail : List Char) (lower higher : Reader α) : Prop :=
  ∀ text, SucceedsAs (Parsed.Extends tail) (lower text) (higher (text ++ tail))

/-- What reads the inside of a bracket has a counterpart, as far as a bracket may be opened. -/
def InsideExtends {α : Type} (related : α → α → Prop) (lower higher : Option (Unit → α)) : Prop :=
  ∀ content, lower = some content →
    ∃ other, higher = some other ∧ related (content ()) (other ())

theorem insideExtends_none
    {α : Type}
    {related : α → α → Prop}
    {higher : Option (Unit → α)} :
    InsideExtends related none higher :=
  nofun

/-- A text begins with a closing bracket, if it is not empty. -/
def Closes (tail : List Char) : Prop :=
  ∀ char ∈ tail.head?, char = ']'

variable {α β σ : Type} {tail text rest : List Char} {first : Char}

/-- A text that closes is empty or shows its closing bracket. -/
theorem Closes.eq_nil_or_cons (closes : Closes tail) :
    tail = [] ∨ ∃ others, tail = ']' :: others := by
  cases tail with
  | nil => exact .inl rfl
  | cons first others =>
    obtain rfl := closes first rfl
    exact .inr ⟨others, rfl⟩

theorem Reader.Extends.map
    {lower higher : Reader α}
    (follows : Reader.Extends tail lower higher)
    (convert : α → β) :
    Reader.Extends tail (lower.map convert) (higher.map convert) := by
  intro text
  apply (follows text).map
  rintro _ _ ⟨value, rest⟩
  exact .intro _ _ _ _

/-- A conversion that can fail looks at what was read only, never at what follows. -/
theorem Reader.Extends.tryMap
    {lower higher : Reader α}
    (follows : Reader.Extends tail lower higher)
    (convert : α → Except DecodeFault β) :
    Reader.Extends tail (lower.tryMap convert) (higher.tryMap convert) := by
  intro text
  apply (follows text).bind
  rintro _ _ ⟨value, rest⟩
  apply (SucceedsAs.refl (convert value)).bind
  rintro converted _ rfl
  exact .ok (.intro _ _ _ _)

/-! ## Blanks -/

/-- Blanks end where something shows, whatever stands behind it. -/
theorem skipBlanks_append (shows : Text.skipBlanks text ≠ []) :
    Text.skipBlanks (text ++ tail) = Text.skipBlanks text ++ tail := by
  unfold Text.skipBlanks at *
  rw [List.dropWhile_append, if_neg (by simpa using shows)]

/-- The character ahead is the first one behind the blanks. -/
theorem ahead_eq_char_iff :
    (∃ short, ahead text = .char first rest short) ↔ Text.skipBlanks text = first :: rest := by
  unfold ahead Taken.ahead
  constructor
  · rintro ⟨short, isAhead⟩
    split at isAhead
    case h_1 => exact nomatch isAhead
    case h_2 found others isRest =>
      injection isAhead with sameFirst sameRest
      rw [← sameFirst, ← sameRest]
      exact isRest
  · intro isRest
    split
    case h_1 isEmpty =>
      exact absurd (isRest.symm.trans isEmpty) (List.cons_ne_nil first rest)
    case h_2 found others isFound =>
      obtain ⟨rfl, rfl⟩ := List.cons.inj (isFound.symm.trans isRest)
      have bound := Text.length_skipBlanks_le text
      rw [isRest] at bound
      exact ⟨bound, rfl⟩

/-- Nothing stands ahead, or the same stands ahead where more follows. -/
theorem ahead_cases (text tail : List Char) :
    ahead text = .nothing ∨
      ∃ first rest short longShort, ahead text = .char first rest short ∧
        ahead (text ++ tail) = .char first (rest ++ tail) longShort := by
  cases isAhead : ahead text with
  | nothing => exact .inl rfl
  | char first rest short =>
    have isRest := ahead_eq_char_iff.1 ⟨short, isAhead⟩
    have shows : Text.skipBlanks text ≠ [] := isRest ▸ List.cons_ne_nil first rest
    have isLong : Text.skipBlanks (text ++ tail) = first :: (rest ++ tail) := by
      rw [skipBlanks_append shows, isRest, List.cons_append]
    obtain ⟨longShort, isLongAhead⟩ := ahead_eq_char_iff.2 isLong
    exact .inr ⟨first, rest, short, longShort, rfl, isLongAhead⟩

/-- Nothing is read from an empty text, since each reader takes at least one character. -/
theorem Parsed.ne_nil (parsed : Parsed α text) : text ≠ [] := by
  rintro rfl
  exact absurd parsed.shorter (Nat.not_lt_zero _)

/-- What passes over blanks first goes by the text behind them, which must show. -/
theorem Reader.Extends.afterBlanks
    {lower higher : Reader α}
    (follows : ∀ first rest,
      SucceedsAs (Parsed.Extends tail) (lower (first :: rest)) (higher (first :: (rest ++ tail)))) :
    Reader.Extends tail lower.afterBlanks higher.afterBlanks := by
  intro text
  have onRest : SucceedsAs (Parsed.Extends tail) (lower (Text.skipBlanks text))
      (higher (Text.skipBlanks (text ++ tail))) := by
    by_cases shows : Text.skipBlanks text = []
    · exact fun parsed => absurd shows parsed.ne_nil
    · rw [skipBlanks_append shows]
      obtain ⟨first, rest, isRest⟩ := List.exists_cons_of_ne_nil shows
      rw [isRest]
      exact follows first rest
  apply onRest.bind
  rintro _ _ ⟨value, rest⟩
  exact .ok (.intro _ _ _ _)

/-! ## Literals and strings -/

/-- Expected letters are found in a text whatever follows it. -/
theorem extends_letters (expected text tail : List Char) :
    SucceedsAs (Taken.Extends tail) (Reader.letters expected text)
      (Reader.letters expected (text ++ tail)) := by
  induction expected generalizing text with
  | nil => exact .ok (.intro _ _ _ _)
  | cons letter expected inductionHypothesis =>
    cases text with
    | nil => exact .error _
    | cons char text =>
      rw [List.cons_append, Reader.letters, Reader.letters]
      by_cases same : letter = char
      · rw [if_pos same, if_pos same]
        apply (inductionHypothesis text).bind
        rintro _ _ ⟨value, rest⟩
        exact .ok (.intro _ _ _ _)
      · rw [if_neg same]
        exact .error _

theorem extends_literal (others : List Char) (value : α) :
    Reader.Extends tail (Reader.literal others value) (Reader.literal others value) := by
  intro text
  cases text with
  | nil => exact .error _
  | cons char text =>
    apply (extends_letters others text tail).bind
    rintro _ _ ⟨value, rest⟩
    exact .ok (.intro _ _ _ _)

namespace Quote

theorem extends_readUnit : Reader.Extends tail readUnit readUnit := by
  intro text
  unfold readUnit
  split
  case h_1 first second third fourth rest =>
    simp only [List.cons_append]
    cases hexValues? [first, second, third, fourth] with
    | none => exact .error _
    | some unit => exact .ok (.intro _ _ _ _)
  case h_2 =>
    split
    · exact .error _
    · exact .error _

theorem extends_readTrailing : Reader.Extends tail readTrailing readTrailing := by
  intro text
  unfold readTrailing
  split
  case h_1 => exact .error _
  case h_2 => exact .error _
  case h_3 text =>
    simp only [List.cons_append]
    apply (extends_readUnit text).bind
    rintro _ _ ⟨trailing, rest⟩
    by_cases isTrailing : isTrailing trailing = true
    · simp only [isTrailing, if_true]
      exact .ok (.intro _ _ _ _)
    · simp only [isTrailing]
      exact .error _
  case h_4 => exact .error _

/-- A unit, or the two units of a surrogate pair, are read alike where more follows. -/
theorem extends_readUnits : Reader.Extends tail readUnits readUnits := by
  intro text
  apply (extends_readUnit text).bind
  rintro _ _ ⟨unit, rest⟩
  by_cases isTrailing : isTrailing unit = true
  · simp only [isTrailing, if_true]
    exact .error _
  simp only [isTrailing]
  by_cases isLeading : isLeading unit = true
  · simp only [isLeading, if_true]
    apply (extends_readTrailing rest).bind
    rintro _ _ ⟨trailing, rest⟩
    exact .ok (.intro _ _ _ _)
  · simp only [isLeading]
    exact .ok (.intro _ _ _ _)

/-- What stands behind a backslash is read alike where more follows, if its units are. -/
theorem extends_readEscape
    {plain : Char → α}
    {units : Reader α}
    (follows : Reader.Extends tail units units) :
    Reader.Extends tail (readEscape plain units) (readEscape plain units) := by
  intro text
  cases text with
  | nil => exact .error _
  | cons letter text =>
    simp only [List.cons_append, readEscape]
    cases escaped? letter with
    | some char => exact .ok (.intro _ _ _ _)
    | none =>
      by_cases isUnit : letter = 'u'
      · simp only [isUnit, if_true]
        apply (follows text).bind
        rintro _ _ ⟨char, rest⟩
        exact .ok (.intro _ _ _ _)
      · simp only [isUnit, if_false]
        exact .error _

/-- The characters of a quotation end at the quotation mark that closes it, so that what follows
is not looked at. -/
theorem extends_readChars
    {plain : Char → α}
    {escape : Reader α}
    (follows : Reader.Extends tail escape escape) :
    Reader.Extends tail (readChars plain escape) (readChars plain escape) := by
  intro text
  induction isLong : text.length using Nat.strongRecOn generalizing text with
  | ind length inductionHypothesis =>
    subst isLong
    cases text with
    | nil =>
      rw [readChars]
      exact .error _
    | cons char text =>
      rw [List.cons_append]
      by_cases isQuote : char = '"'
      · subst isQuote
        rw [readChars, readChars]
        exact .ok (.intro _ _ _ _)
      by_cases isEscape : char = '\\'
      · subst isEscape
        rw [readChars, readChars]
        apply (follows text).bind
        rintro _ _ ⟨value, rest, shorter⟩
        apply (inductionHypothesis rest.length (Nat.lt_succ_of_lt shorter) rest rfl).bind
        rintro _ _ ⟨others, rest⟩
        exact .ok (.intro _ _ _ _)
      · rw [readChars, readChars]
        · by_cases isControl : char.toNat < 0x20
          · simp only [isControl, if_true]
            exact .error _
          · simp only [isControl, if_false]
            apply (inductionHypothesis text.length (Nat.lt_succ_self _) text rfl).bind
            rintro _ _ ⟨others, rest⟩
            exact .ok (.intro _ _ _ _)
        · exact isQuote
        · exact isEscape
        · exact isQuote
        · exact isEscape

/-- A quoted string is read alike whatever follows its quotation mark. -/
theorem extends_read : Reader.Extends tail read read :=
  (extends_readChars (extends_readEscape extends_readUnits)).map String.ofList

theorem extends_skip : Reader.Extends tail skip skip :=
  (extends_readChars (extends_readEscape (extends_readUnit.map _))).map _

end Quote

/-! ## Numerals -/

namespace Numeral

variable (closes : Closes tail)

include closes

/-- Digits go on into no text that is empty or begins with a closing bracket. -/
theorem digits_append_of_closes (text : List Char) :
    digits (text ++ tail) = digits text ∧
      afterDigits (text ++ tail) = afterDigits text ++ tail := by
  induction text with
  | nil =>
    obtain rfl | ⟨others, rfl⟩ := closes.eq_nil_or_cons
    · exact ⟨rfl, rfl⟩
    · exact ⟨rfl, rfl⟩
  | cons first text inductionHypothesis =>
    unfold digits afterDigits at *
    cases isDigit : first.isDigit with
    | true => simpa [isDigit] using inductionHypothesis
    | false => simp [isDigit]

/-- Digits of which there must be one are read alike in front of what closes. -/
theorem extends_readDigits (atEnd : TextFault) :
    Reader.Extends tail (readDigits atEnd) (readDigits atEnd) := by
  intro text
  cases text with
  | nil => exact .error _
  | cons first text =>
    obtain ⟨sameDigits, sameRest⟩ := digits_append_of_closes closes text
    simp only [List.cons_append, readDigits, sameDigits, sameRest]
    by_cases isDigit : first.isDigit = true
    · simp only [isDigit, if_true]
      exact .ok (.intro _ _ _ _)
    · simp only [isDigit]
      exact .error _

/-- A whole part without a leading zero is read alike in front of what closes. -/
theorem extends_readWhole (atEnd : TextFault) :
    Reader.Extends tail (readWhole atEnd) (readWhole atEnd) := by
  intro text
  cases text with
  | nil => exact .error _
  | cons first text =>
    by_cases isZero : first = '0'
    · subst isZero
      simp only [List.cons_append, readWhole, (digits_append_of_closes closes text).1]
      by_cases isEmpty : (digits text).isEmpty = true
      · simp only [isEmpty, if_true]
        exact .ok (.intro _ _ _ _)
      · simp only [isEmpty]
        exact .error _
    · have notZero : ∀ text,
          readWhole atEnd (first :: text) = readDigits atEnd (first :: text) := by
        intro text
        rw [readWhole]
        rintro _ ⟨⟩
        exact isZero rfl
      rw [List.cons_append, notZero, notZero]
      exact extends_readDigits closes atEnd (first :: text)

theorem extends_takeMinus (text : List Char) :
    Taken.Extends tail (takeMinus text) (takeMinus (text ++ tail)) := by
  have other : ∀ {first : Char} (text : List Char), first ≠ '-' →
      takeMinus (first :: text) = .nothing false := by
    intro first text isOther
    rw [takeMinus]
    rintro _ ⟨⟩
    exact isOther rfl
  cases text with
  | nil =>
    obtain rfl | ⟨others, rfl⟩ := closes.eq_nil_or_cons
    · exact .intro _ _ _ _
    · exact .intro _ _ _ _
  | cons first text =>
    rw [List.cons_append]
    by_cases isMinus : first = '-'
    · subst isMinus
      exact .intro _ _ _ _
    · rw [other _ isMinus, other _ isMinus]
      exact .intro _ _ _ _

/-- A sign is found, or found missing, whether or not more follows. -/
theorem extends_takeSign (text : List Char) :
    Taken.Extends tail (takeSign text) (takeSign (text ++ tail)) := by
  have other : ∀ {first : Char} (text : List Char), first ≠ '+' →
      takeSign (first :: text) = takeMinus (first :: text) := by
    intro first text isOther
    rw [takeSign]
    rintro _ ⟨⟩
    exact isOther rfl
  cases text with
  | nil =>
    obtain rfl | ⟨others, rfl⟩ := closes.eq_nil_or_cons
    · exact .intro _ _ _ _
    · exact .intro _ _ _ _
  | cons first text =>
    rw [List.cons_append]
    by_cases isPlus : first = '+'
    · subst isPlus
      exact .intro _ _ _ _
    · rw [other _ isPlus, other _ isPlus]
      exact extends_takeMinus closes (first :: text)

/-- A fraction is found, or found missing, whether or not more follows. -/
theorem extends_takeFraction (atEnd : TextFault) (text : List Char) :
    SucceedsAs (Taken.Extends tail) (takeFraction atEnd text)
      (takeFraction atEnd (text ++ tail)) := by
  have other : ∀ {first : Char} (text : List Char), first ≠ '.' →
      takeFraction atEnd (first :: text) = .ok (.nothing []) := by
    intro first text isOther
    rw [takeFraction]
    rintro _ ⟨⟩
    exact isOther rfl
  cases text with
  | nil =>
    obtain rfl | ⟨others, rfl⟩ := closes.eq_nil_or_cons
    · exact .ok (.intro _ _ _ _)
    · exact .ok (.intro _ _ _ _)
  | cons first text =>
    rw [List.cons_append]
    by_cases isPoint : first = '.'
    · subst isPoint
      apply (extends_readDigits closes atEnd text).bind
      rintro _ _ ⟨fraction, rest⟩
      exact .ok (.intro _ _ _ _)
    · rw [other _ isPoint, other _ isPoint]
      exact .ok (.intro _ _ _ _)

/-- An exponent is found, or found missing, whether or not more follows. -/
theorem extends_takePower (atEnd : TextFault) (text : List Char) :
    SucceedsAs (Taken.Extends tail) (takePower atEnd text) (takePower atEnd (text ++ tail)) := by
  cases text with
  | nil =>
    obtain rfl | ⟨others, rfl⟩ := closes.eq_nil_or_cons
    · exact .ok (.intro _ _ _ _)
    · exact .ok (.intro _ _ _ _)
  | cons first text =>
    rw [List.cons_append, takePower, takePower]
    by_cases isLetter : first = 'e' ∨ first = 'E'
    · simp only [isLetter, if_true]
      have ofSign := extends_takeSign closes text
      generalize takeSign text = sign at ofSign
      generalize takeSign (text ++ tail) = other at ofSign
      obtain ⟨negative, rest⟩ := ofSign
      apply (extends_readDigits closes atEnd rest).bind
      rintro _ _ ⟨power, rest⟩
      exact .ok (.intro _ _ _ _)
    · simp only [isLetter, if_false]
      exact .ok (.intro _ _ _ _)

/-- A numeral ends at a closing bracket as it ends with its text. -/
theorem extends_read (atEnd : TextFault) : Reader.Extends tail (read atEnd) (read atEnd) := by
  intro text
  unfold read
  have ofSign := extends_takeMinus closes text
  generalize takeMinus text = sign at ofSign
  generalize takeMinus (text ++ tail) = other at ofSign
  obtain ⟨negative, rest⟩ := ofSign
  apply (extends_readWhole closes atEnd rest).bind
  rintro _ _ ⟨whole, rest⟩
  apply (extends_takeFraction closes atEnd rest).bind
  rintro _ _ ⟨fraction, rest⟩
  apply (extends_takePower closes atEnd rest).bind
  rintro _ _ ⟨power, rest⟩
  exact .ok (.intro _ _ _ _)

theorem extends_readNumber : Reader.Extends tail readNumber readNumber :=
  (extends_read closes _).tryMap _

end Numeral

/-! ## Brackets -/

namespace Reader

variable {lower higher : Reader α}

/-- The items behind a first one are read alike where more follows, if each item is. -/
theorem extends_moreItems (follows : Reader.Extends tail lower higher) :
    Reader.Extends tail (moreItems lower) (moreItems higher) := by
  intro text
  induction isLong : text.length using Nat.strongRecOn generalizing text with
  | ind length inductionHypothesis =>
    subst isLong
    rw [moreItems, moreItems]
    obtain isAhead | ⟨first, rest, short, _, isAhead, isLongAhead⟩ := ahead_cases text tail
    · simp only [isAhead]
      exact .error _
    simp only [isAhead, isLongAhead]
    by_cases isEnd : first = ']'
    · subst isEnd
      exact .ok (.intro _ _ _ _)
    by_cases isComma : first = ','
    case neg =>
      simp only
      exact .error _
    subst isComma
    simp only
    obtain isNext | ⟨next, after, _, _, isNext, isLongNext⟩ := ahead_cases rest tail
    · simp only [isNext]
      exact .error _
    simp only [isNext, isLongNext]
    by_cases isLast : next = ']'
    · subst isLast
      exact .error _
    simp only
    apply (follows rest).bind
    rintro _ _ ⟨value, others, shorter⟩
    apply (inductionHypothesis others.length (Nat.lt_trans shorter short) others rfl).bind
    rintro _ _ ⟨values, others⟩
    exact .ok (.intro _ _ _ _)

/-- A list is read alike behind its closing bracket, if each of its items is. -/
theorem extends_items (follows : Reader.Extends tail lower higher) :
    Reader.Extends tail (items lower) (items higher) := by
  intro text
  unfold items
  obtain isAhead | ⟨first, rest, _, _, isAhead, isLongAhead⟩ := ahead_cases text tail
  · simp only [isAhead]
    exact .error _
  simp only [isAhead, isLongAhead]
  by_cases isEnd : first = ']'
  · subst isEnd
    exact .ok (.intro _ _ _ _)
  simp only
  apply (follows text).bind
  rintro _ _ ⟨value, others⟩
  apply (extends_moreItems follows others).bind
  rintro _ _ ⟨values, others⟩
  exact .ok (.intro _ _ _ _)

theorem extends_colon : Reader.Extends tail colon colon := by
  intro text
  unfold colon
  obtain isAhead | ⟨first, rest, _, _, isAhead, isLongAhead⟩ := ahead_cases text tail
  · simp only [isAhead]
    exact .error _
  simp only [isAhead, isLongAhead]
  by_cases isColon : first = ':'
  · subst isColon
    exact .ok (.intro _ _ _ _)
  · simp only
    exact .error _

/-- Steps that go on with readers of which one extends the other, or that both refuse a key. -/
def StepExtends (tail : List Char) (lower higher : String → Except DecodeFault (Reader σ)) : Prop :=
  ∀ key, SucceedsAs (Reader.Extends tail) (lower key) (higher key)

/-- A key and its value are read alike where more follows, if whatever the key asks for is. -/
theorem extends_member
    {lower higher : String → Except DecodeFault (Reader σ)}
    (follows : StepExtends tail lower higher) :
    Reader.Extends tail (member lower) (member higher) := by
  intro text
  apply (Quote.extends_read text).bind
  rintro _ _ ⟨key, rest⟩
  apply (follows key).bind
  intro value longValue valueFollows
  apply (extends_colon rest).bind
  rintro _ _ ⟨_, rest⟩
  apply (valueFollows rest).bind
  rintro _ _ ⟨parsed, rest⟩
  exact .ok (.intro _ _ _ _)

variable {lowerStep higherStep : σ → String → Except DecodeFault (Reader σ)}

/-- The members behind a first one are read alike where more follows. The state that they lead to
is the same, so each member meets the same step. -/
theorem extends_moreMembers
    (follows : ∀ state, StepExtends tail (lowerStep state) (higherStep state))
    (state : σ) :
    Reader.Extends tail (moreMembers lowerStep state) (moreMembers higherStep state) := by
  intro text
  induction isLong : text.length using Nat.strongRecOn generalizing text state with
  | ind length inductionHypothesis =>
    subst isLong
    rw [moreMembers, moreMembers]
    obtain isAhead | ⟨first, rest, short, _, isAhead, isLongAhead⟩ := ahead_cases text tail
    · simp only [isAhead]
      exact .error _
    simp only [isAhead, isLongAhead]
    by_cases isEnd : first = '\x7d'
    · subst isEnd
      exact .ok (.intro _ _ _ _)
    by_cases isComma : first = ','
    case neg =>
      simp only
      exact .error _
    subst isComma
    simp only
    obtain isNext | ⟨next, quoted, shorter, _, isNext, isLongNext⟩ := ahead_cases rest tail
    · simp only [isNext]
      exact .error _
    simp only [isNext, isLongNext]
    by_cases isQuote : next = '"'
    · subst isQuote
      simp only
      apply (extends_member (follows state) quoted).bind
      rintro _ _ ⟨nextState, others, shortest⟩
      have less : others.length < text.length := Nat.lt_trans shortest (Nat.lt_trans shorter short)
      apply (inductionHypothesis others.length less nextState others rfl).bind
      rintro _ _ ⟨final, others⟩
      exact .ok (.intro _ _ _ _)
    by_cases isLast : next = '\x7d'
    · subst isLast
      exact .error _
    · simp only
      exact .error _

/-- An object is read alike behind its closing bracket, if each step of it is. -/
theorem extends_members
    (follows : ∀ state, StepExtends tail (lowerStep state) (higherStep state))
    (state : σ) :
    Reader.Extends tail (members lowerStep state) (members higherStep state) := by
  intro text
  unfold members
  obtain isAhead | ⟨first, rest, _, _, isAhead, isLongAhead⟩ := ahead_cases text tail
  · simp only [isAhead]
    exact .error _
  simp only [isAhead, isLongAhead]
  by_cases isEnd : first = '\x7d'
  · subst isEnd
    exact .ok (.intro _ _ _ _)
  by_cases isQuote : first = '"'
  · subst isQuote
    simp only
    apply (extends_member (follows state) rest).bind
    rintro _ _ ⟨nextState, others⟩
    apply (extends_moreMembers follows nextState others).bind
    rintro _ _ ⟨final, others⟩
    exact .ok (.intro _ _ _ _)
  · simp only
    exact .error _

/-! ## Values -/

section

variable (closes : Closes tail)

include closes

/-- Anything but a list or an object is read alike in front of what closes. -/
theorem extends_scalar : Reader.Extends tail scalar scalar := by
  intro text
  cases text with
  | nil => exact .error _
  | cons first rest =>
    rw [List.cons_append]
    by_cases isNull : first = 'n'
    · subst isNull
      exact extends_literal _ _ ('n' :: rest)
    by_cases isTrue : first = 't'
    · subst isTrue
      exact extends_literal _ _ ('t' :: rest)
    by_cases isFalse : first = 'f'
    · subst isFalse
      exact extends_literal _ _ ('f' :: rest)
    by_cases isQuote : first = '"'
    · subst isQuote
      apply (Quote.extends_read rest).bind
      rintro _ _ ⟨text, rest⟩
      exact .ok (.intro _ _ _ _)
    have isOther : ∀ rest, scalar (first :: rest) =
        if first = '-' ∨ first.isDigit then Numeral.readNumber.map Json.number (first :: rest)
        else TextFault.expectedValue.raise := by
      intro rest
      rw [scalar]
      all_goals assumption
    rw [isOther, isOther]
    by_cases isNumber : first = '-' ∨ first.isDigit = true
    · simp only [isNumber, if_true]
      exact (Numeral.extends_readNumber closes).map Json.number (first :: rest)
    · simp only [isNumber, if_false]
      exact .error _

/-- A value is read alike in front of what closes, if what its brackets hold is. -/
theorem extends_valueWith
    {lower higher : Option (Unit → Reader Json)}
    (follows : InsideExtends (Reader.Extends tail) lower higher) :
    Reader.Extends tail (valueWith lower) (valueWith higher) := by
  apply Reader.Extends.afterBlanks
  intro first rest
  cases lower with
  | none =>
    by_cases isSquare : first = '['
    · subst isSquare
      exact .error _
    by_cases isCurly : first = '\x7b'
    · subst isCurly
      exact .error _
    simp only [List.cons.injEq, isSquare, isCurly, false_and, imp_self, implies_true]
    exact extends_scalar closes (first :: rest)
  | some content =>
    obtain ⟨other, rfl, contentFollows⟩ := follows content rfl
    by_cases isSquare : first = '['
    · subst isSquare
      apply (extends_items contentFollows rest).bind
      rintro _ _ ⟨values, rest⟩
      exact .ok (.intro _ _ _ _)
    by_cases isCurly : first = '\x7b'
    · subst isCurly
      have stepFollows : ∀ entries : Dictionary Json, StepExtends tail
          (fun key => .ok ((content ()).map (entries.insert key)))
          (fun key => .ok ((other ()).map (entries.insert key))) :=
        fun entries key => .ok (contentFollows.map _)
      apply (extends_members stepFollows ∅ rest).bind
      rintro _ _ ⟨entries, rest⟩
      exact .ok (.intro _ _ _ _)
    simp only [List.cons.injEq, isSquare, isCurly, false_and, imp_self, implies_true]
    exact extends_scalar closes (first :: rest)

/-- Whatever value is read within a number of open brackets is read within a higher number, and
in front of what closes. -/
theorem extends_value {lower higher : Nat} (less : lower ≤ higher) :
    Reader.Extends tail (value lower) (value higher) := by
  induction lower generalizing higher with
  | zero =>
    cases higher with
    | zero => exact extends_valueWith closes insideExtends_none
    | succ higher => exact extends_valueWith closes insideExtends_none
  | succ lower inductionHypothesis =>
    cases higher with
    | zero => exact absurd less (Nat.not_succ_le_zero lower)
    | succ higher =>
      apply extends_valueWith closes
      rintro _ ⟨⟩
      exact ⟨_, rfl, inductionHypothesis (Nat.le_of_succ_le_succ less)⟩

/-! ## Values that are passed over -/

/-- Anything but a list or an object is passed over alike in front of what closes. -/
theorem extends_skipScalar : Reader.Extends tail skipScalar skipScalar := by
  intro text
  cases text with
  | nil => exact .error _
  | cons first rest =>
    simp only [List.cons_append, skipScalar]
    by_cases isQuote : first = '"'
    · simp only [isQuote, if_true]
      apply (Quote.extends_skip rest).bind
      rintro _ _ ⟨_, rest⟩
      exact .ok (.intro _ _ _ _)
    simp only [isQuote, if_false]
    by_cases isNumber : first = '-' ∨ first.isDigit = true
    · simp only [isNumber, if_true]
      exact (Numeral.extends_read closes _).map _ (first :: rest)
    · simp only [isNumber, if_false]
      exact (extends_scalar closes).map _ (first :: rest)

omit closes in
theorem extends_skipKey : Reader.Extends tail skipKey skipKey := by
  intro text
  unfold skipKey
  obtain isAhead | ⟨first, rest, _, _, isAhead, isLongAhead⟩ := ahead_cases text tail
  · simp only [isAhead]
    exact .error _
  simp only [isAhead, isLongAhead]
  by_cases isQuote : first = '"'
  · subst isQuote
    simp only
    apply (Quote.extends_skip rest).bind
    rintro _ _ ⟨_, rest⟩
    apply (extends_colon rest).bind
    rintro _ _ ⟨_, rest⟩
    exact .ok (.intro _ _ _ _)
  · simp only
    exact .error _

section

variable
  (within : ∀ rest brackets, rest.length < text.length →
    SucceedsAs (Parsed.Extends tail) (skipWithin brackets rest)
      (skipWithin brackets (rest ++ tail)))
  (after : ∀ rest brackets, rest.length < text.length →
    SucceedsAs (Taken.Extends tail) (skipAfter brackets rest)
      (skipAfter brackets (rest ++ tail)))

include within after

/-- A value is passed over alike, if every shorter text is: what its first character opens is
passed over in shorter texts. -/
theorem extends_skipWithin (brackets : List Bracket) :
    SucceedsAs (Parsed.Extends tail) (skipWithin brackets text)
      (skipWithin brackets (text ++ tail)) := by
  rw [skipWithin, skipWithin]
  obtain isAhead | ⟨first, rest, short, _, isAhead, isLongAhead⟩ := ahead_cases text tail
  · simp only [isAhead]
    exact .error _
  simp only [isAhead, isLongAhead]
  by_cases isSquare : first = '['
  · subst isSquare
    simp only
    obtain isNext | ⟨next, others, shorter, _, isNext, isLongNext⟩ := ahead_cases rest tail
    · simp only [isNext]
      exact .error _
    simp only [isNext, isLongNext]
    by_cases isEnd : next = ']'
    · subst isEnd
      simp only
      apply (after others brackets (Nat.lt_trans shorter short)).bind
      rintro _ _ ⟨_, rest⟩
      exact .ok (.intro _ _ _ _)
    · simp only
      apply (within rest _ short).bind
      rintro _ _ ⟨_, rest⟩
      exact .ok (.intro _ _ _ _)
  by_cases isCurly : first = '\x7b'
  · subst isCurly
    simp only
    obtain isNext | ⟨next, others, shorter, _, isNext, isLongNext⟩ := ahead_cases rest tail
    · have noKey : ∃ error, skipKey rest = .error error := by
        simp only [skipKey, isNext]
        exact ⟨_, rfl⟩
      obtain ⟨error, isError⟩ := noKey
      simp only [isNext, isError]
      exact .error _
    simp only [isNext, isLongNext]
    by_cases isEnd : next = '\x7d'
    · subst isEnd
      simp only
      apply (after others brackets (Nat.lt_trans shorter short)).bind
      rintro _ _ ⟨_, rest⟩
      exact .ok (.intro _ _ _ _)
    · simp only [Ahead.char.injEq, isEnd, false_and, imp_self, implies_true]
      apply (extends_skipKey rest).bind
      rintro _ _ ⟨_, others, shorter⟩
      apply (within others _ (Nat.lt_trans shorter short)).bind
      rintro _ _ ⟨_, rest⟩
      exact .ok (.intro _ _ _ _)
  simp only
  apply (extends_skipScalar closes (first :: rest)).bind
  rintro _ _ ⟨_, others, shorter⟩
  have less : others.length < text.length := Nat.lt_of_lt_of_le shorter short
  apply (after others brackets less).bind
  rintro _ _ ⟨_, rest⟩
  exact .ok (.intro _ _ _ _)

omit closes in
/-- What stands behind a value is passed over alike, if every shorter text is. -/
theorem extends_skipAfter (brackets : List Bracket) :
    SucceedsAs (Taken.Extends tail) (skipAfter brackets text)
      (skipAfter brackets (text ++ tail)) := by
  cases brackets with
  | nil =>
    rw [skipAfter, skipAfter]
    exact .ok (.intro _ _ _ _)
  | cons bracket outer =>
    cases bracket with
    | square =>
      rw [skipAfter, skipAfter]
      obtain isAhead | ⟨first, rest, short, _, isAhead, isLongAhead⟩ := ahead_cases text tail
      · simp only [isAhead]
        exact .error _
      simp only [isAhead, isLongAhead]
      by_cases isComma : first = ','
      · subst isComma
        simp only
        apply (within rest _ short).bind
        rintro _ _ ⟨_, rest⟩
        exact .ok (.intro _ _ _ _)
      by_cases isEnd : first = ']'
      · subst isEnd
        simp only
        apply (after rest outer short).bind
        rintro _ _ ⟨_, rest⟩
        exact .ok (.intro _ _ _ _)
      · simp only
        exact .error _
    | curly =>
      rw [skipAfter, skipAfter]
      obtain isAhead | ⟨first, rest, short, _, isAhead, isLongAhead⟩ := ahead_cases text tail
      · simp only [isAhead]
        exact .error _
      simp only [isAhead, isLongAhead]
      by_cases isComma : first = ','
      · subst isComma
        simp only
        apply (extends_skipKey rest).bind
        rintro _ _ ⟨_, others, shorter⟩
        apply (within others _ (Nat.lt_trans shorter short)).bind
        rintro _ _ ⟨_, rest⟩
        exact .ok (.intro _ _ _ _)
      by_cases isEnd : first = '\x7d'
      · subst isEnd
        simp only
        apply (after rest outer short).bind
        rintro _ _ ⟨_, rest⟩
        exact .ok (.intro _ _ _ _)
      · simp only
        exact .error _

end

/-- Both ways to pass over a text are followed at once: each goes on with the other. -/
theorem extends_skipping (text : List Char) :
    (∀ brackets, SucceedsAs (Parsed.Extends tail) (skipWithin brackets text)
      (skipWithin brackets (text ++ tail))) ∧
    ∀ brackets, SucceedsAs (Taken.Extends tail) (skipAfter brackets text)
      (skipAfter brackets (text ++ tail)) := by
  induction isLong : text.length using Nat.strongRecOn generalizing text with
  | ind length inductionHypothesis =>
    subst isLong
    have within : ∀ rest brackets, rest.length < text.length →
        SucceedsAs (Parsed.Extends tail) (skipWithin brackets rest)
          (skipWithin brackets (rest ++ tail)) :=
      fun rest brackets short => (inductionHypothesis rest.length short rest rfl).1 brackets
    have after : ∀ rest brackets, rest.length < text.length →
        SucceedsAs (Taken.Extends tail) (skipAfter brackets rest)
          (skipAfter brackets (rest ++ tail)) :=
      fun rest brackets short => (inductionHypothesis rest.length short rest rfl).2 brackets
    exact ⟨extends_skipWithin closes within after, extends_skipAfter within after⟩

/-- A value of any depth is passed over alike in front of what closes. -/
theorem extends_skip : Reader.Extends tail skip skip :=
  fun text => (extends_skipping closes text).1 []

end

/-- A value of another kind than the wanted one is never taken for it. -/
theorem unexpected_ne_ok (wanted : String) (parsed : Parsed α text) :
    unexpected wanted text ≠ .ok parsed := by
  unfold unexpected
  split
  · exact nofun
  · exact nofun
  · cases scalar text with
    | error fault => exact nofun
    | ok found => exact nofun

theorem unexpected_fails
    {related : Parsed α text → β → Prop}
    {outcome : Except DecodeFault β}
    (wanted : String) :
    SucceedsAs related (unexpected wanted text) outcome :=
  fun parsed isRead => absurd isRead (unexpected_ne_ok wanted parsed)

end Reader

end Verdict
