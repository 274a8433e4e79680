import Verdict.Facts

/-!
# Resolution of paths

A path is read as segments, and segments lead from a value to one of its parts: through an
object by a key, through an array by an index. A look-up of a fact that is present finds the
part to which the path leads, and fails for the path if it leads nowhere.

An address names a part by keys and indices. It is written as a path by putting dots between
them, and a look-up along this path finds the part at the address, unless a key holds a dot
or the first key gets lost among the signs at the front of the path.
-/

namespace Verdict

theorem Text.splitAt_eq_splitOn
    (separator : Char)
    (text : List Char) :
    splitAt separator text = text.splitOn separator := by
  induction text with
  | nil => rfl
  | cons char rest inductionHypothesis =>
    rw [List.splitOn_cons_eq_if_modifyHead, ← inductionHypothesis, splitAt]
    by_cases isSeparator : char = separator
    · simp [isSeparator]
    · cases parts : splitAt separator rest with
      | nil => exact absurd parts (splitAt_ne_nil separator rest)
      | cons part others => simp [isSeparator]

theorem Text.not_mem_of_mem_splitAt
    {separator : Char}
    {text part : List Char}
    (isPart : part ∈ splitAt separator text) :
    separator ∉ part := by
  induction text generalizing part with
  | nil => simp_all [splitAt]
  | cons char rest inductionHypothesis =>
    unfold splitAt at isPart
    split at isPart
    case isTrue =>
      rcases List.mem_cons.1 isPart with rfl | inRest
      · exact List.not_mem_nil
      · exact inductionHypothesis inRest
    case isFalse different =>
      cases parts : splitAt separator rest with
      | nil => exact absurd parts (splitAt_ne_nil separator rest)
      | cons first others =>
        simp only [parts, List.mem_cons] at isPart inductionHypothesis
        rcases isPart with rfl | inOthers
        · have notInFirst := inductionHypothesis (.inl rfl)
          simp [notInFirst, Ne.symm different]
        · exact inductionHypothesis (.inr inOthers)

namespace Path

/-! ## Segments of a path -/

/-- A path is read as segments: they stand between dots behind a front of dollar signs and
dots that is as long as it can be. Where nothing stands behind the front, there are no
segments. -/
inductive IsReadAs (path : String) (segments : List String) : Prop
  | intro (front : String) :
    path = front ++ ".".intercalate segments →
      (∀ char ∈ front.toList, char = '$' ∨ char = '.') →
      (∀ char ∈ (".".intercalate segments).toList.head?, char ≠ '$' ∧ char ≠ '.') →
      (∀ segment ∈ segments, '.' ∉ segment.toList) →
      segments ≠ [""] →
      IsReadAs path segments

variable {path segment : String} {segments : List String} {value part : Json} {index : Nat}
  {digits : List Char}

theorem trim_of_append
    {front rest : String}
    (idle : ∀ char ∈ front.toList, char = '$' ∨ char = '.')
    (starts : ∀ char ∈ rest.toList.head?, char ≠ '$' ∧ char ≠ '.') :
    trim (front ++ rest) = rest.toList := by
  have inFront : ∀ char ∈ front.toList, (char == '$' || char == '.') = true := by
    simpa using idle
  rw [trim, String.toList_append, List.dropWhile_append_of_pos inFront]
  cases chars : rest.toList with
  | nil => rfl
  | cons char others =>
    have shows := starts char (by simp [chars])
    simp [shows]

theorem segments_eq_map (shows : trim path ≠ []) :
    Path.segments path = (Text.splitAt '.' (trim path)).map String.ofList := by
  unfold Path.segments
  split
  case h_1 isNil => exact absurd isNil shows
  case h_2 => rfl

theorem toList_intercalate_dot (segments : List String) :
    (".".intercalate segments).toList = ['.'].intercalate (segments.map String.toList) :=
  String.toList_intercalate

/-- What a path is read as are its segments. -/
theorem IsReadAs.segments_eq (isRead : IsReadAs path segments) : Path.segments path = segments := by
  obtain ⟨front, rfl, idle, starts, noDots, notBlank⟩ := isRead
  have trimmed := trim_of_append idle starts
  rw [toList_intercalate_dot] at trimmed
  cases segments with
  | nil =>
    rw [Path.segments, trimmed]
    rfl
  | cons first others =>
    have shows : trim (front ++ ".".intercalate (first :: others)) ≠ [] := by
      rw [trimmed]
      cases others with
      | nil => simpa using notBlank
      | cons second rest => simp
    have split := List.splitOn_intercalate '.' (List.forall_mem_map.2 noDots) (List.cons_ne_nil _ _)
    rw [segments_eq_map shows, trimmed, Text.splitAt_eq_splitOn, split]
    simp

/-- Every path is read as its segments. -/
theorem isReadAs_segments (path : String) : IsReadAs path (Path.segments path) := by
  have rest : (".".intercalate (Path.segments path)).toList = trim path := by
    by_cases shows : trim path = []
    · simp [Path.segments, shows]
    · rw [segments_eq_map shows, toList_intercalate_dot, List.map_map]
      simpa using Text.intercalate_splitAt '.' (trim path)
  refine .intro (String.ofList (path.toList.takeWhile fun char => char == '$' || char == '.'))
    ?whole ?idle ?starts ?noDots ?notBlank
  case whole =>
    rw [← String.toList_inj, String.toList_append, rest, String.toList_ofList, trim,
      List.takeWhile_append_dropWhile]
  case idle =>
    intro char member
    rw [String.toList_ofList] at member
    simpa using List.all_eq_true.1 List.all_takeWhile char member
  case starts =>
    intro char isHead
    rw [rest, trim, Option.mem_def] at isHead
    have shows := List.head?_dropWhile_not (fun char => char == '$' || char == '.') path.toList
    simpa [isHead] using shows
  case noDots =>
    intro segment member
    by_cases shows : trim path = []
    · simp [Path.segments, shows] at member
    · rw [segments_eq_map shows] at member
      obtain ⟨part, isPart, rfl⟩ := List.mem_map.1 member
      rw [String.toList_ofList]
      exact Text.not_mem_of_mem_splitAt isPart
  case notBlank =>
    intro blank
    have nothing : trim path = [] := by simp [← rest, blank]
    simp [Path.segments, nothing] at blank

/-! ## Indices -/

theorem foldlM_digits_eq_some_iff
    {start number : Nat} :
    digits.foldlM (fun value digit =>
        if digit.isDigit then some (10 * value + (digit.toNat - '0'.toNat)) else none) start =
      some number ↔
    (∀ digit ∈ digits, digit.isDigit = true) ∧ Nat.ofDigitChars 10 digits start = number := by
  induction digits generalizing start with
  | nil => simp
  | cons digit rest inductionHypothesis =>
    rw [List.foldlM_cons, Nat.ofDigitChars_cons, List.forall_mem_cons]
    by_cases isDigit : digit.isDigit = true
    · simp [isDigit, ← inductionHypothesis]
    · simp [isDigit]

theorem naturalOf?_eq_some_iff :
    naturalOf? digits = some index ↔
      digits ≠ [] ∧ (∀ digit ∈ digits, digit.isDigit = true) ∧
        Nat.ofDigitChars 10 digits 0 = index := by
  rw [naturalOf?, ← foldlM_digits_eq_some_iff]
  cases digits <;> simp

/-- A segment denotes an index: it is written in one or more decimal digits, after a plus sign
or none. -/
inductive Denotes (segment : String) (index : Nat) : Prop
  | intro (digits : List Char) :
    segment.toList = digits ∨ segment.toList = '+' :: digits →
      digits ≠ [] →
      (∀ digit ∈ digits, digit.isDigit = true) →
      Nat.ofDigitChars 10 digits 0 = index →
      Denotes segment index

theorem indexOf?_eq_some_iff : indexOf? segment = some index ↔ Denotes segment index := by
  constructor
  · intro denoted
    unfold indexOf? at denoted
    split at denoted
    case h_1 digits isSigned =>
      obtain ⟨notEmpty, areDigits, isValue⟩ := naturalOf?_eq_some_iff.1 denoted
      exact .intro digits (.inr isSigned) notEmpty areDigits isValue
    case h_2 =>
      obtain ⟨notEmpty, areDigits, isValue⟩ := naturalOf?_eq_some_iff.1 denoted
      exact .intro segment.toList (.inl rfl) notEmpty areDigits isValue
  · rintro ⟨digits, isWritten, notEmpty, areDigits, isValue⟩
    have denoted := naturalOf?_eq_some_iff.2 ⟨notEmpty, areDigits, isValue⟩
    unfold indexOf?
    rcases isWritten with isPlain | isSigned
    · split
      case h_1 others isSigned =>
        -- a plus sign is no digit
        have isDigit := areDigits '+' (by simp [← isPlain, isSigned])
        exact nomatch isDigit
      case h_2 => exact isPlain ▸ denoted
    · rw [isSigned]
      exact denoted

/-! ## The part to which segments lead -/

/-- Segments lead from a value to one of its parts: each is the key of a member of an object,
or denotes the index of an item of an array. -/
inductive Leads : Json → List String → Json → Prop
  | here (value : Json) : Leads value [] value
  | member {members : List (String × Json)} {key : String} {rest : List String}
    {inner part : Json} :
    members.lookup key = some inner → Leads inner rest part →
      Leads (.object members) (key :: rest) part
  | item {items : List Json} {segment : String} {index : Nat} {rest : List String}
    {inner part : Json} :
    Denotes segment index → items[index]? = some inner → Leads inner rest part →
      Leads (.array items) (segment :: rest) part

theorem leads_of_follow?
    (followed : follow? value segments = some part) :
    Leads value segments part := by
  induction segments generalizing value with
  | nil =>
    obtain rfl := Option.some.inj followed
    exact .here value
  | cons segment rest inductionHypothesis =>
    rw [follow?_cons] at followed
    obtain ⟨inner, stepped, followedRest⟩ := Option.bind_eq_some_iff.1 followed
    have leads := inductionHypothesis followedRest
    cases value with
    | object members => exact .member stepped leads
    | array items =>
      obtain ⟨index, denoted, isItem⟩ := Option.bind_eq_some_iff.1 stepped
      exact .item (indexOf?_eq_some_iff.1 denoted) isItem leads
    | null | boolean | number | string => exact nomatch stepped

theorem Leads.follow? (leads : Leads value segments part) :
    Path.follow? value segments = some part := by
  induction leads with
  | here value => rfl
  | member isMember _ inductionHypothesis =>
    rw [follow?_cons, step?, isMember]
    exact inductionHypothesis
  | item denotes isItem _ inductionHypothesis =>
    rw [follow?_cons, step?, indexOf?_eq_some_iff.2 denotes, Option.bind_some, isItem]
    exact inductionHypothesis

theorem leads_iff : Leads value segments part ↔ Path.follow? value segments = some part :=
  ⟨Leads.follow?, leads_of_follow?⟩

/-! ## Addresses -/

/-- One step of an address. -/
inductive Step where
  | key (name : String)
  | index (place : Nat)

/-- What is written of a step. -/
def Step.text : Step → String
  | .key name => name
  | .index place => toString place

/-- The path that is written of an address. -/
def ofAddress (address : List Step) : String :=
  "$." ++ ".".intercalate (address.map Step.text)

/-- The part of a value at an address. -/
inductive HasAt : Json → List Step → Json → Prop
  | here (value : Json) : HasAt value [] value
  | key {members : List (String × Json)} {name : String} {rest : List Step} {inner part : Json} :
    members.lookup name = some inner → HasAt inner rest part →
      HasAt (.object members) (.key name :: rest) part
  | index {items : List Json} {place : Nat} {rest : List Step} {inner part : Json} :
    items[place]? = some inner → HasAt inner rest part →
      HasAt (.array items) (.index place :: rest) part

/-- An address that can be told from its path: no key holds a dot, and a key in the first place
is not empty and does not begin with a dollar sign. -/
structure IsTellable (address : List Step) : Prop where
  noDots : ∀ name, .key name ∈ address → '.' ∉ name.toList
  shows : ∀ name, address.head? = some (.key name) → name ≠ "" ∧ name.toList.head? ≠ some '$'

variable {address : List Step}

theorem isDigit_of_mem_toString
    {char : Char}
    (member : char ∈ (toString index).toList) :
    char.isDigit = true := by
  rw [Nat.toString_eq_repr, Nat.toList_repr] at member
  exact Nat.isDigit_of_mem_toDigits (by decide) (by decide) member

theorem denotes_toString (index : Nat) : Denotes (toString index) index := by
  refine .intro (toString index).toList (.inl rfl) ?notEmpty ?digits ?value
  case notEmpty => simp
  case digits => exact fun digit member => isDigit_of_mem_toString member
  case value =>
    rw [Nat.toString_eq_repr, Nat.toList_repr]
    exact Nat.ofDigitChars_ten_toDigits

theorem IsTellable.dot_not_mem_text
    (tellable : IsTellable address)
    {step : Step}
    (member : step ∈ address) :
    '.' ∉ step.text.toList := by
  cases step with
  | key name => exact tellable.noDots name member
  | index place => exact fun isDot => nomatch isDigit_of_mem_toString isDot

/-- What is written of the first step is not lost among the signs at the front. -/
theorem IsTellable.first_shows
    {first : Step}
    {others : List Step}
    (tellable : IsTellable (first :: others)) :
    first.text ≠ "" ∧ ∀ char ∈ first.text.toList.head?, char ≠ '$' ∧ char ≠ '.' := by
  have noDot := tellable.dot_not_mem_text List.mem_cons_self
  cases first with
  | key name =>
    obtain ⟨notEmpty, notDollar⟩ := tellable.shows name rfl
    refine ⟨notEmpty, fun char isHead => ⟨?_, ?_⟩⟩
    · exact fun isDollar => notDollar (isDollar ▸ isHead)
    · exact fun isDot => noDot (isDot ▸ List.mem_of_mem_head? isHead)
  | index place =>
    refine ⟨by simp [Step.text], fun char isHead => ⟨?_, ?_⟩⟩
    · rintro rfl
      exact nomatch isDigit_of_mem_toString (List.mem_of_mem_head? isHead)
    · exact fun isDot => noDot (isDot ▸ List.mem_of_mem_head? isHead)

/-- The path of an address is read as what is written of its steps. -/
theorem isReadAs_ofAddress (tellable : IsTellable address) :
    IsReadAs (ofAddress address) (address.map Step.text) := by
  refine .intro "$." rfl ?idle ?starts ?noDots ?notBlank
  case idle => simp
  case starts =>
    rw [toList_intercalate_dot]
    cases address with
    | nil => simp
    | cons first others =>
      obtain ⟨notEmpty, shows⟩ := tellable.first_shows
      obtain ⟨char, chars, text⟩ :=
        List.exists_cons_of_ne_nil (mt String.toList_eq_nil_iff.1 notEmpty)
      cases others <;> simpa [text] using shows
  case noDots =>
    refine List.forall_mem_map.2 fun step member => ?_
    exact tellable.dot_not_mem_text member
  case notBlank =>
    intro blank
    obtain ⟨first, rfl, isBlank⟩ := List.map_eq_singleton_iff.1 blank
    exact tellable.first_shows.1 isBlank

/-- What is written of an address leads to the part that is there. -/
theorem HasAt.leads (hasAt : HasAt value address part) :
    Leads value (address.map Step.text) part := by
  induction hasAt with
  | here value => exact .here value
  | key isMember _ inductionHypothesis => exact .member isMember inductionHypothesis
  | index isItem _ inductionHypothesis =>
    exact .item (denotes_toString _) isItem inductionHypothesis

end Path

namespace Facts

variable {facts : Facts} {name path : String} {value part : Json}

theorem lookup_of_get?
    (stored : facts.values.get? name = some value)
    (present : value ≠ .null) :
    facts.lookup name = some value := by
  unfold lookup
  rw [stored]
  cases value <;> first | rfl | exact absurd rfl present

/-- A look-up finds the part to which the segments of the path lead. -/
theorem get_eq_ok_iff (found : facts.lookup name = some value) :
    facts.get name (some path) = .ok (some part) ↔
      Path.Leads value (Path.segments path) part := by
  simp only [get, found, Path.leads_iff]
  cases Path.follow? value (Path.segments path) <;> simp

/-- A look-up fails for the path if its segments lead nowhere. -/
theorem get_eq_error_iff (found : facts.lookup name = some value) :
    facts.get name (some path) = .error (.pathNotFound name path) ↔
      ¬∃ part, Path.Leads value (Path.segments path) part := by
  simp only [get, found, Path.leads_iff]
  cases Path.follow? value (Path.segments path) <;> simp

/-- Every path is read as segments. A look-up of a fact that is present finds the part to which
they lead, and fails for the path exactly if they lead nowhere. A path of dollar signs and
dots alone has no segments, and finds the fact itself. Along the path of an address, from
which the address can be told, it finds the part at the address. -/
theorem get_finds_part
    (stored : facts.values.get? name = some value)
    (present : value ≠ .null) :
    (∀ path, ∃ segments, Path.IsReadAs path segments) ∧
    (∀ path segments, Path.IsReadAs path segments →
      (segments = [] → facts.get name (some path) = .ok (some value)) ∧
      (∀ part, facts.get name (some path) = .ok (some part) ↔ Path.Leads value segments part) ∧
      (facts.get name (some path) = .error (.pathNotFound name path) ↔
        ¬∃ part, Path.Leads value segments part)) ∧
    ∀ address part, Path.IsTellable address → Path.HasAt value address part →
      facts.get name (some (Path.ofAddress address)) = .ok (some part) := by
  have found := lookup_of_get? stored present
  refine ⟨fun path => ⟨_, Path.isReadAs_segments path⟩, ?read, ?addressed⟩
  case read =>
    intro path segments isRead
    obtain rfl := isRead.segments_eq
    refine ⟨fun none => ?_, fun part => get_eq_ok_iff found, get_eq_error_iff found⟩
    rw [get_eq_ok_iff found, none]
    exact .here value
  case addressed =>
    intro address part tellable hasAt
    rw [get_eq_ok_iff found, (Path.isReadAs_ofAddress tellable).segments_eq]
    exact hasAt.leads

/-- A fact with an object in an object, an array under an empty key and a null before the
item. -/
def nested : Json :=
  .object [("a", .object [("", .array [.null, .boolean true])])]

/-- A look-up leads through an empty key and past a null. -/
theorem get_in_nested :
    (empty.add "profile" nested).values.get? "profile" = some nested ∧ nested ≠ .null ∧
      (empty.add "profile" nested).get "profile" (some "$.a..1") = .ok (some (.boolean true)) := by
  have stored : (empty.add "profile" nested).values.get? "profile" = some nested :=
    (Dictionary.get?_insert _ _ _ _).trans (if_pos rfl)
  refine ⟨stored, nofun, ?_⟩
  have tellable : Path.IsTellable [.key "a", .key "", .index 1] := by
    constructor <;> simp
  exact (get_finds_part stored nofun).2.2 [.key "a", .key "", .index 1] (.boolean true) tellable
    (.key rfl (.key rfl (.index rfl (.here _))))

end Facts
end Verdict
