import Mathlib.Data.List.TakeWhile
import Verdict.Settings.Scalar

/-!
# Written forms of scalars

What a text is the written form of, as a grammar: a boolean in any case, an integer of 64 bits
in decimal digits, a real with a point and a power of ten or as a word. The scalar that is
guessed of a text is the one that the grammar gives it, and a text that the grammar does not
know stands for itself.
-/

namespace Verdict

namespace Numeral

variable {text sign digits rest : List Char} {negative : Bool} {value : Nat} {power : Int}

/-- A minus sign, a plus sign or none. -/
inductive IsSign : List Char → Bool → Prop
  | minus : IsSign ['-'] true
  | plus : IsSign ['+'] false
  | none : IsSign [] false

/-- A text in front of which a sign can be told from it. -/
def IsUnsigned (text : List Char) : Prop :=
  ∀ char ∈ text.head?, char ≠ '+' ∧ char ≠ '-'

/-- An integer of a sign and a magnitude. -/
def signed (negative : Bool) (magnitude : Nat) : Int :=
  if negative then -magnitude else magnitude

/-- One or more decimal digits. -/
structure IsNatural (text : List Char) (value : Nat) : Prop where
  notEmpty : text ≠ []
  areDigits : ∀ digit ∈ text, digit.isDigit = true
  isValue : Nat.ofDigitChars 10 text 0 = value

/-- A power of ten: its letter, and digits after a sign or none. What is not written is the
zeroth power. -/
inductive IsPower : List Char → Int → Prop
  | none : IsPower [] 0
  | written {letter : Char} {sign digits : List Char} {negative : Bool} {value : Nat} :
    letter = 'e' ∨ letter = 'E' →
      IsSign sign negative →
      IsNatural digits value →
      IsPower (letter :: (sign ++ digits)) (signed negative value)

/-- A point and the digits behind it, of which there need not be any. -/
inductive IsFraction : List Char → List Char → Prop
  | none : IsFraction [] []
  | written {digits : List Char} :
    (∀ digit ∈ digits, digit.isDigit = true) → IsFraction ('.' :: digits) digits

theorem isUnsigned_of_isDigit {first : Char} (isDigit : first.isDigit = true) :
    IsUnsigned (first :: rest) := by
  intro char isFirst
  obtain rfl := Option.some.inj isFirst
  constructor
  · rintro rfl
    exact absurd isDigit (by decide)
  · rintro rfl
    exact absurd isDigit (by decide)

theorem IsNatural.isUnsigned (natural : IsNatural text value) : IsUnsigned text := by
  cases text with
  | nil => exact absurd rfl natural.notEmpty
  | cons first rest => exact isUnsigned_of_isDigit (natural.areDigits first List.mem_cons_self)

/-! ## Signs -/

/-- What is taken for the sign of a text is one, and with what is left it makes up the text. -/
theorem exists_isSign (text : List Char) :
    ∃ sign, IsSign sign (takeSign text).value ∧ text = sign ++ (takeSign text).rest := by
  unfold takeSign
  split
  · exact ⟨['+'], .plus, rfl⟩
  · unfold takeMinus
    split
    · exact ⟨['-'], .minus, rfl⟩
    · exact ⟨[], .none, rfl⟩

/-- A sign in front of a text without one is taken whole and alone. -/
theorem takeSign_of_isSign
    (isSign : IsSign sign negative)
    (unsigned : IsUnsigned rest)
    (isText : text = sign ++ rest) :
    (takeSign text).value = negative ∧ (takeSign text).rest = rest := by
  subst isText
  cases isSign with
  | minus => exact ⟨rfl, rfl⟩
  | plus => exact ⟨rfl, rfl⟩
  | none =>
    rw [List.nil_append, takeSign.eq_def]
    split
    · exact absurd rfl (unsigned '+' rfl).1
    · unfold takeMinus
      split
      · exact absurd rfl (unsigned '-' rfl).2
      · exact ⟨rfl, rfl⟩

/-! ## Digits -/

/-- Digits are taken up to the first character that is none. -/
theorem digits_append
    (areDigits : ∀ digit ∈ digits, digit.isDigit = true)
    (ends : ∀ char ∈ rest.head?, char.isDigit = false) :
    Numeral.digits (digits ++ rest) = digits ∧ afterDigits (digits ++ rest) = rest := by
  have noMore : Numeral.digits rest = [] ∧ afterDigits rest = rest := by
    cases rest with
    | nil => exact ⟨rfl, rfl⟩
    | cons first rest =>
      have isFirst := ends first rfl
      simp [Numeral.digits, afterDigits, isFirst]
  constructor
  · rw [Numeral.digits, List.takeWhile_append_of_pos areDigits]
    exact (congrArg _ noMore.1).trans (List.append_nil digits)
  · rw [afterDigits, List.dropWhile_append_of_pos areDigits]
    exact noMore.2

theorem isDigit_of_mem_digits {digit : Char} (member : digit ∈ Numeral.digits text) :
    digit.isDigit = true :=
  List.mem_takeWhile_imp member

theorem digits_append_afterDigits (text : List Char) :
    Numeral.digits text ++ afterDigits text = text :=
  List.takeWhile_append_dropWhile

/-- A text is read to its end as digits of a value exactly if it writes that number. -/
theorem readDigits_iff (atEnd : TextFault) :
    (∃ read, readDigits atEnd text = .ok read ∧ read.rest = [] ∧ digitsValue read.value = value) ↔
      IsNatural text value := by
  cases text with
  | nil =>
    constructor
    · rintro ⟨read, isRead, _⟩
      cases isRead
    · exact fun natural => absurd rfl natural.notEmpty
  | cons first rest =>
    by_cases isDigit : first.isDigit = true
    case neg =>
      constructor
      · rintro ⟨read, isRead, _⟩
        simp [readDigits, isDigit, TextFault.raise] at isRead
      · exact fun natural => absurd (natural.areDigits first List.mem_cons_self) isDigit
    simp only [readDigits, isDigit, if_true, Except.ok.injEq, exists_eq_left']
    constructor
    · rintro ⟨nothingLeft, isValue⟩
      have allDigits : Numeral.digits rest = rest := by
        simpa [nothingLeft] using digits_append_afterDigits rest
      rw [allDigits] at isValue
      refine ⟨List.cons_ne_nil first rest, List.forall_mem_cons.2 ⟨isDigit, ?_⟩, isValue⟩
      rw [← allDigits]
      exact fun digit => isDigit_of_mem_digits
    · intro natural
      obtain ⟨_, areDigits⟩ := List.forall_mem_cons.1 natural.areDigits
      have noDigit : ∀ char ∈ ([] : List Char).head?, char.isDigit = false := by simp
      obtain ⟨allDigits, nothingLeft⟩ := digits_append areDigits noDigit
      rw [List.append_nil] at allDigits nothingLeft
      exact ⟨nothingLeft, allDigits.symm ▸ natural.isValue⟩

/-! ## Powers -/

/-- A text is read to its end as a power of ten exactly if it writes that power. -/
theorem takePower_iff (atEnd : TextFault) :
    (∃ taken, takePower atEnd text = .ok taken ∧ taken.rest = [] ∧
        taken.value.getD 0 = power) ↔
      IsPower text power := by
  constructor
  · rintro ⟨taken, isTaken, nothingLeft, isPower⟩
    cases text with
    | nil =>
      obtain rfl := Except.ok.inj isTaken
      subst isPower
      exact .none
    | cons letter rest =>
      by_cases isLetter : letter = 'e' ∨ letter = 'E'
      case neg =>
        simp only [takePower, isLetter, if_false, Except.ok.injEq] at isTaken
        subst isTaken
        exact nomatch nothingLeft
      obtain ⟨sign, isSign, split⟩ := exists_isSign rest
      simp only [takePower, isLetter, if_true] at isTaken
      cases isRead : readDigits atEnd (takeSign rest).rest with
      | error fault => simp [isRead, bind, Except.bind] at isTaken
      | ok read =>
        simp only [isRead, bind, Except.bind, pure, Except.pure, Except.ok.injEq] at isTaken
        subst isTaken isPower
        have natural := (readDigits_iff atEnd).1 ⟨read, isRead, nothingLeft, rfl⟩
        have written := IsPower.written isLetter isSign natural
        rw [← split] at written
        exact written
  · intro isPower
    cases isPower with
    | none => exact ⟨_, rfl, rfl, rfl⟩
    | @written letter sign digits negative value isLetter isSign natural =>
      obtain ⟨sameSign, sameRest⟩ := takeSign_of_isSign isSign natural.isUnsigned rfl
      have ofRest : IsNatural (takeSign (sign ++ digits)).rest value := sameRest.symm ▸ natural
      obtain ⟨read, isRead, nothingLeft, isValue⟩ :=
        (readDigits_iff atEnd).2 ofRest
      refine ⟨_, by simp only [takePower, isLetter, if_true, isRead]; rfl, nothingLeft, ?_⟩
      rw [← sameSign, ← isValue]
      rfl

/-- A power goes on with neither the digits in front of it nor their point. -/
theorem IsPower.head_not_isDigit
    (isPower : IsPower text power) :
    ∀ char ∈ text.head?, char.isDigit = false ∧ char ≠ '.' := by
  cases isPower with
  | none => exact nofun
  | written isLetter _ _ =>
    intro char isFirst
    obtain rfl := Option.some.inj isFirst
    rcases isLetter with rfl | rfl
    · decide
    · decide

end Numeral

open Numeral

/-! ## Reals -/

namespace Real64

variable {text : List Char} {negative : Bool} {value : Real64}

/-- A word for an infinite real, in any case. -/
def IsInfinity (text : List Char) : Prop :=
  text.map Char.toLower = ['i', 'n', 'f'] ∨
    text.map Char.toLower = ['i', 'n', 'f', 'i', 'n', 'i', 't', 'y']

/-- The word for a real that is not a number, in any case. -/
def IsUndefined (text : List Char) : Prop :=
  text.map Char.toLower = ['n', 'a', 'n']

/-- A real without its sign: a word in any case, or digits before and behind a point, not both
without any, and a power of ten. -/
inductive IsUnsignedForm (negative : Bool) : List Char → Real64 → Prop
  | infinite {text : List Char} :
    IsInfinity text → IsUnsignedForm negative text (.infinite negative)
  | undefined {text : List Char} :
    IsUndefined text → IsUnsignedForm negative text .undefined
  | decimal {whole point fraction written : List Char} {power : Int} :
    (∀ digit ∈ whole, digit.isDigit = true) →
      IsFraction point fraction →
      (whole ≠ [] ∨ fraction ≠ []) →
      IsPower written power →
      IsUnsignedForm negative (whole ++ (point ++ written))
        (ofDecimal negative (whole ++ fraction) (power - fraction.length))

/-- A real as it is written. -/
inductive IsForm : List Char → Real64 → Prop
  | intro {sign text : List Char} {negative : Bool} {value : Real64} :
    IsSign sign negative → IsUnsignedForm negative text value → IsForm (sign ++ text) value

theorem toLower_of_isDigit {char : Char} (isDigit : char.isDigit = true) : char.toLower = char := by
  simp only [Char.isDigit, ge_iff_le, UInt32.le_iff_toNat_le, Bool.and_eq_true,
    decide_eq_true_eq] at isDigit
  apply dif_neg
  rintro ⟨isUpper, _⟩
  exact absurd ((UInt32.le_iff_toNat_le.1 isUpper).trans isDigit.2) (by decide)

/-- Digits and points do not begin a word. -/
theorem map_toLower_ne
    {whole point fraction rest word : List Char}
    {letter : Char}
    (areDigits : ∀ digit ∈ whole, digit.isDigit = true)
    (isFraction : IsFraction point fraction)
    (shows : whole ≠ [] ∨ fraction ≠ [])
    (isLetter : letter.isDigit = false ∧ letter ≠ '.') :
    (whole ++ (point ++ rest)).map Char.toLower ≠ letter :: word := by
  intro same
  cases whole with
  | cons digit others =>
    have isDigit := areDigits digit List.mem_cons_self
    rw [List.cons_append, List.map_cons, toLower_of_isDigit isDigit] at same
    rw [(List.cons.inj same).1, isLetter.1] at isDigit
    exact nomatch isDigit
  | nil =>
    cases isFraction with
    | none => simp at shows
    | written _ => exact isLetter.2 (List.cons.inj same).1.symm

/-- The digits behind a point that may stand at the front of a text, and the text after them. -/
def splitFraction : List Char → List Char × List Char
  | '.' :: rest => (Numeral.digits rest, Numeral.afterDigits rest)
  | rest => ([], rest)

/-- A point and its digits are split off in front of a text that goes on with neither. -/
theorem splitFraction_append
    {point fraction rest : List Char}
    (isFraction : IsFraction point fraction)
    (ends : ∀ char ∈ rest.head?, char.isDigit = false ∧ char ≠ '.') :
    splitFraction (point ++ rest) = (fraction, rest) := by
  cases isFraction with
  | none =>
    rw [List.nil_append, splitFraction.eq_def]
    split
    · exact absurd rfl (ends '.' rfl).2
    · rfl
  | written areDigits =>
    obtain ⟨ofFraction, afterFraction⟩ :=
      digits_append areDigits fun char isFirst => (ends char isFirst).1
    exact congrArg₂ Prod.mk ofFraction afterFraction

/-- What is split off is a fraction, and with what is left it makes up the text. -/
theorem exists_isFraction (text : List Char) :
    ∃ point, IsFraction point (splitFraction text).1 ∧ text = point ++ (splitFraction text).2 := by
  unfold splitFraction
  split
  · refine ⟨_, .written fun _ => isDigit_of_mem_digits, ?_⟩
    rw [List.cons_append, digits_append_afterDigits]
  · exact ⟨[], .none, rfl⟩

/-- The real of digits, if they show, and of a power behind them. -/
def ofParts? (negative : Bool) (whole fraction written : List Char) : Option Real64 :=
  if whole.isEmpty && fraction.isEmpty then none
  else
    match takePower .invalidNumber written with
    | .ok ⟨power, [], _⟩ =>
      some (ofDecimal negative (whole ++ fraction) (power.getD 0 - fraction.length))
    | _ => none

/-- Parts have a real exactly if digits show in them and what is left writes a power. -/
theorem ofParts?_eq_some_iff {whole fraction written : List Char} :
    ofParts? negative whole fraction written = some value ↔
      (whole ≠ [] ∨ fraction ≠ []) ∧
        ∃ power, IsPower written power ∧
          ofDecimal negative (whole ++ fraction) (power - fraction.length) = value := by
  unfold ofParts?
  split
  case isTrue empty => simpa using fun shows => absurd shows (by simpa using empty)
  case isFalse shows =>
    have shows : whole ≠ [] ∨ fraction ≠ [] := by simpa [imp_iff_not_or] using shows
    constructor
    · intro isRead
      split at isRead
      case h_2 => exact nomatch isRead
      case h_1 power within isTaken =>
        have isPower := (takePower_iff .invalidNumber).1 ⟨_, isTaken, rfl, rfl⟩
        exact ⟨shows, _, isPower, Option.some.inj isRead⟩
    · rintro ⟨_, power, isPower, isValue⟩
      obtain ⟨⟨found, rest, within⟩, isTaken, nothingLeft, samePower⟩ :=
        (takePower_iff .invalidNumber).2 isPower
      obtain rfl : rest = [] := nothingLeft
      simp only [isTaken]
      rw [← isValue, ← samePower]

theorem ofUnsigned?_of_isInfinity (isInfinity : IsInfinity text) :
    ofUnsigned? negative text = some (.infinite negative) :=
  if_pos isInfinity

/-- No word for an infinite real is the word for one that is not a number. -/
theorem ofUnsigned?_of_isUndefined (isUndefined : IsUndefined text) :
    ofUnsigned? negative text = some .undefined := by
  have noInfinity : ¬ IsInfinity text := by
    unfold IsInfinity
    rw [isUndefined]
    decide
  exact (if_neg noInfinity).trans (if_pos isUndefined)

theorem ofUnsigned?_eq_ofParts?
    (noInfinity : ¬ IsInfinity text)
    (noUndefined : ¬ IsUndefined text) :
    ofUnsigned? negative text =
      ofParts? negative (Numeral.digits text) (splitFraction (Numeral.afterDigits text)).1
        (splitFraction (Numeral.afterDigits text)).2 :=
  (if_neg noInfinity).trans (if_neg noUndefined)

/-- A text without a sign is read as a real exactly if it writes that real. -/
theorem ofUnsigned?_eq_some_iff :
    ofUnsigned? negative text = some value ↔ IsUnsignedForm negative text value := by
  constructor
  · intro isRead
    by_cases isInfinity : IsInfinity text
    · rw [ofUnsigned?_of_isInfinity isInfinity, Option.some.injEq] at isRead
      exact isRead ▸ .infinite isInfinity
    by_cases isUndefined : IsUndefined text
    · rw [ofUnsigned?_of_isUndefined isUndefined, Option.some.injEq] at isRead
      exact isRead ▸ .undefined isUndefined
    rw [ofUnsigned?_eq_ofParts? isInfinity isUndefined] at isRead
    obtain ⟨point, isFraction, isSplit⟩ := exists_isFraction (Numeral.afterDigits text)
    obtain ⟨shows, power, isPower, rfl⟩ := ofParts?_eq_some_iff.1 isRead
    have form : IsUnsignedForm negative _ _ :=
      .decimal (fun _ => isDigit_of_mem_digits) isFraction shows isPower
    rw [← isSplit, digits_append_afterDigits] at form
    exact form
  · intro isForm
    cases isForm with
    | infinite isInfinity => exact ofUnsigned?_of_isInfinity isInfinity
    | undefined isUndefined => exact ofUnsigned?_of_isUndefined isUndefined
    | @decimal whole point fraction written power areDigits isFraction shows isPower =>
      have noWord : ∀ {letter : Char} {word : List Char}, letter.isDigit = false ∧ letter ≠ '.' →
          (whole ++ (point ++ written)).map Char.toLower ≠ letter :: word :=
        map_toLower_ne areDigits isFraction shows
      have noInfinity : ¬ IsInfinity (whole ++ (point ++ written)) := by
        rintro (isWord | isWord)
        · exact noWord ⟨rfl, by decide⟩ isWord
        · exact noWord ⟨rfl, by decide⟩ isWord
      have noUndefined : ¬ IsUndefined (whole ++ (point ++ written)) :=
        noWord ⟨rfl, by decide⟩
      have wholeEnds : ∀ char ∈ (point ++ written).head?, char.isDigit = false := by
        cases isFraction with
        | none => exact fun char isFirst => (isPower.head_not_isDigit char isFirst).1
        | written _ =>
          intro char isFirst
          obtain rfl := Option.some.inj isFirst
          rfl
      obtain ⟨ofWhole, afterWhole⟩ := digits_append areDigits wholeEnds
      rw [ofUnsigned?_eq_ofParts? noInfinity noUndefined, ofWhole, afterWhole,
        splitFraction_append isFraction isPower.head_not_isDigit]
      exact ofParts?_eq_some_iff.2 ⟨shows, power, isPower, rfl⟩

/-- Neither a word nor digits begin with a sign, so that a sign is read off unambiguously. -/
theorem IsUnsignedForm.isUnsigned (isForm : IsUnsignedForm negative text value) :
    IsUnsigned text := by
  have ofWord : ∀ {letter : Char} {word : List Char}, '+'.toLower ≠ letter → '-'.toLower ≠ letter →
      text.map Char.toLower = letter :: word → IsUnsigned text := by
    rintro letter word notPlus notMinus isWord char isFirst
    obtain ⟨rest, rfl⟩ := List.head?_eq_some_iff.1 isFirst
    have isLetter := (List.cons.inj isWord).1
    constructor
    · rintro rfl
      exact notPlus isLetter
    · rintro rfl
      exact notMinus isLetter
  cases isForm with
  | infinite isWord =>
    rcases isWord with isWord | isWord
    · exact ofWord (by decide) (by decide) isWord
    · exact ofWord (by decide) (by decide) isWord
  | undefined isWord => exact ofWord (by decide) (by decide) isWord
  | @decimal whole point fraction written power areDigits isFraction shows isPower =>
    cases whole with
    | cons first rest => exact isUnsigned_of_isDigit (areDigits first List.mem_cons_self)
    | nil =>
      cases isFraction with
      | none => simp at shows
      | written _ =>
        intro char isFirst
        obtain rfl := Option.some.inj isFirst
        decide

/-- A text is read as a real exactly if it writes that real. -/
theorem ofText?_eq_some_iff {text : String} :
    ofText? text = some value ↔ IsForm text.toList value := by
  constructor
  · intro isRead
    obtain ⟨sign, isSign, isSplit⟩ := exists_isSign text.toList
    rw [isSplit]
    exact .intro isSign (ofUnsigned?_eq_some_iff.1 isRead)
  · intro isForm
    generalize isText : text.toList = letters at isForm
    cases isForm with
    | intro isSign isForm =>
      obtain ⟨sameSign, sameRest⟩ := takeSign_of_isSign isSign isForm.isUnsigned isText
      simp only [ofText?, sameSign, sameRest]
      exact ofUnsigned?_eq_some_iff.2 isForm

end Real64

namespace Scalar

variable {text : String} {value : Bool} {integer : Int} {scalar : Scalar}

/-- A boolean as it is written, in any case. -/
def IsBoolean (text : String) (value : Bool) : Prop :=
  text.toLower = if value then "true" else "false"

/-- An integer of 64 bits as it is written. -/
inductive IsInteger : List Char → Int → Prop
  | intro {sign digits : List Char} {negative : Bool} {magnitude : Nat} :
    IsSign sign negative →
      IsNatural digits magnitude →
      -0x8000000000000000 ≤ signed negative magnitude →
      signed negative magnitude < 0x8000000000000000 →
      IsInteger (sign ++ digits) (signed negative magnitude)

/-- What a text is the written form of. Whatever is no boolean, no integer and no real
is a text. -/
inductive IsForm (text : String) : Scalar → Prop
  | boolean {value : Bool} : IsBoolean text value → IsForm text (.boolean value)
  | integer {value : Int} :
    (∀ boolean, ¬ IsBoolean text boolean) →
      IsInteger text.toList value →
      IsForm text (.integer value)
  | real {value : Real64} :
    (∀ boolean, ¬ IsBoolean text boolean) →
      (∀ integer, ¬ IsInteger text.toList integer) →
      Real64.IsForm text.toList value →
      IsForm text (.real value)
  | text :
    (∀ boolean, ¬ IsBoolean text boolean) →
      (∀ integer, ¬ IsInteger text.toList integer) →
      (∀ real, ¬ Real64.IsForm text.toList real) →
      IsForm text (.text text)

/-- A text is read as a boolean exactly if it writes that boolean, in any case. -/
theorem booleanOf?_eq_some_iff : booleanOf? text.toLower = some value ↔ IsBoolean text value := by
  unfold booleanOf? IsBoolean
  cases value with
  | true => simp
  | false =>
    by_cases isTrue : text.toLower = "true"
    · simp [isTrue]
    · simp [isTrue]

/-- A text is read as a magnitude exactly if it is its decimal digits. -/
theorem digitsNatural?_eq_some_iff {digits : List Char} {magnitude : Nat} :
    digitsNatural? digits = some magnitude ↔ IsNatural digits magnitude := by
  unfold digitsNatural?
  constructor
  · intro isRead
    split at isRead
    case isTrue areDigits =>
      obtain ⟨shows, areDigits⟩ := (Bool.and_eq_true _ _).mp areDigits
      exact ⟨by simpa using shows, List.all_eq_true.1 areDigits, Option.some.inj isRead⟩
    case isFalse => exact nomatch isRead
  · intro natural
    have areDigits : (!digits.isEmpty && digits.all Char.isDigit) = true := by
      simpa using ⟨natural.notEmpty, natural.areDigits⟩
    rw [if_pos areDigits, ← natural.isValue]
    rfl

theorem fitsSigned_iff :
    fitsSigned integer = true ↔ -0x8000000000000000 ≤ integer ∧ integer < 0x8000000000000000 := by
  rw [fitsSigned, Bool.and_eq_true, decide_eq_true_eq, decide_eq_true_eq]

theorem integerOf?_eq :
    integerOf? text =
      (digitsNatural? (takeSign text.toList).rest).bind fun magnitude =>
        if fitsSigned (signed (takeSign text.toList).value magnitude) then
          some (signed (takeSign text.toList).value magnitude)
        else none :=
  rfl

/-- A text is read as an integer exactly if it writes that integer and 64 bits hold it. -/
theorem integerOf?_eq_some_iff :
    integerOf? text = some integer ↔ IsInteger text.toList integer := by
  constructor
  · intro isRead
    obtain ⟨sign, isSign, isSplit⟩ := exists_isSign text.toList
    rw [integerOf?_eq, Option.bind_eq_some_iff] at isRead
    obtain ⟨magnitude, isRead, isFit⟩ := isRead
    obtain ⟨fits, isValue⟩ := Option.ite_none_right_eq_some.1 isFit
    obtain rfl := Option.some.inj isValue
    obtain ⟨low, high⟩ := fitsSigned_iff.1 fits
    have isForm := IsInteger.intro isSign (digitsNatural?_eq_some_iff.1 isRead) low high
    rw [← isSplit] at isForm
    exact isForm
  · intro isForm
    generalize isText : text.toList = letters at isForm
    cases isForm with
    | intro isSign natural low high =>
      obtain ⟨sameSign, sameRest⟩ := takeSign_of_isSign isSign natural.isUnsigned isText
      rw [integerOf?_eq, sameSign, sameRest, digitsNatural?_eq_some_iff.2 natural,
        Option.bind_some, if_pos (fitsSigned_iff.2 ⟨low, high⟩)]

/-- What is not read has no form. -/
theorem eq_none_iff
    {α : Type}
    {read : Option α}
    {form : α → Prop}
    (reads : ∀ value, read = some value ↔ form value) :
    read = none ↔ ∀ value, ¬ form value := by
  rw [Option.eq_none_iff_forall_ne_some]
  apply forall_congr'
  intro value
  exact not_congr (reads value)

/-- The scalar that is guessed is the one of which the text is the written form. -/
theorem guess_eq_iff : guess text = scalar ↔ IsForm text scalar := by
  have noBoolean : booleanOf? text.toLower = none ↔ ∀ value, ¬ IsBoolean text value :=
    eq_none_iff fun _ => booleanOf?_eq_some_iff
  have noInteger : integerOf? text = none ↔ ∀ value, ¬ IsInteger text.toList value :=
    eq_none_iff fun _ => integerOf?_eq_some_iff
  have noReal : Real64.ofText? text = none ↔ ∀ value, ¬ Real64.IsForm text.toList value :=
    eq_none_iff fun _ => Real64.ofText?_eq_some_iff
  constructor
  · rintro rfl
    unfold guess
    cases asBoolean : booleanOf? text.toLower with
    | some value => exact .boolean (booleanOf?_eq_some_iff.1 asBoolean)
    | none =>
    cases asInteger : integerOf? text with
    | some value =>
      exact .integer (noBoolean.1 asBoolean) (integerOf?_eq_some_iff.1 asInteger)
    | none =>
    cases asReal : Real64.ofText? text with
    | some value =>
      exact .real (noBoolean.1 asBoolean) (noInteger.1 asInteger)
        (Real64.ofText?_eq_some_iff.1 asReal)
    | none => exact .text (noBoolean.1 asBoolean) (noInteger.1 asInteger) (noReal.1 asReal)
  · intro isForm
    cases isForm with
    | boolean isBoolean => simp only [guess, booleanOf?_eq_some_iff.2 isBoolean]
    | integer notBoolean isInteger =>
      simp only [guess, noBoolean.2 notBoolean, integerOf?_eq_some_iff.2 isInteger]
    | real notBoolean notInteger isReal =>
      simp only [guess, noBoolean.2 notBoolean, noInteger.2 notInteger,
        Real64.ofText?_eq_some_iff.2 isReal]
    | text notBoolean notInteger notReal =>
      simp only [guess, noBoolean.2 notBoolean, noInteger.2 notInteger, noReal.2 notReal]

end Scalar
end Verdict
