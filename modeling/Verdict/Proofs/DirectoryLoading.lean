import Mathlib.Data.List.Nodup
import Mathlib.Data.Set.List
import Verdict.Loading
import Verdict.Proofs.ByteOrder
import Verdict.Proofs.DecoderExtension
import Verdict.Proofs.Fallible

/-!
# Loading directories

All rules of all files of a directory are loaded, file by file in the byte order of the names
and definition by definition in the order of the text, whatever the order in which the system
lists the directory. The first file that fails gives the error.

A text is decoded before any of its definitions is converted, so a fault anywhere in the text
hides what is wrong with the definitions before it. One definition counts as an array of it.
-/

namespace Verdict

/-! ## One definition -/

variable {α σ : Type} {text tail rest : List Char} {first : Char}

theorem ahead_eq_nothing_iff : ahead text = .nothing ↔ Text.skipBlanks text = [] := by
  constructor
  · intro isNothing
    cases isRest : Text.skipBlanks text with
    | nil => rfl
    | cons first rest =>
      obtain ⟨short, isAhead⟩ := ahead_eq_char_iff.2 isRest
      rw [isNothing] at isAhead
      exact nomatch isAhead
  · intro isRest
    cases isAhead : ahead text with
    | nothing => rfl
    | char first rest short =>
      rw [ahead_eq_char_iff.1 ⟨short, isAhead⟩] at isRest
      exact nomatch isRest

/-- What is read behind blanks is read from the visible text. -/
theorem Reader.of_afterBlanks
    {reader : Reader α}
    {visible : List Char}
    {parsed : Parsed α text}
    (isVisible : Text.skipBlanks text = visible)
    (isRead : reader.afterBlanks text = .ok parsed) :
    ∃ inner : Parsed α visible, reader visible = .ok inner ∧ inner.value = parsed.value ∧
      inner.rest = parsed.rest := by
  subst isVisible
  obtain ⟨inner, isInner, isParsed⟩ := bind_eq_ok_iff.1 isRead
  obtain rfl := Except.ok.inj isParsed
  exact ⟨inner, isInner, rfl, rfl⟩

namespace Decoder

/-- What is read with more behind it is what is read alone, where more brackets may be open. -/
theorem Extends.agree
    {lower higher : Decoder α}
    {alone : Parsed α text}
    {within : Parsed α (text ++ tail)}
    (follows : Extends tail higher higher)
    (opens : Extends [] lower higher)
    (isAlone : higher.read text = .ok alone)
    (isWithin : lower.read (text ++ tail) = .ok within) :
    within.value = alone.value ∧ within.rest = alone.rest ++ tail := by
  obtain ⟨_, isLonger, ⟨value, rest⟩⟩ := follows text alone isAlone
  obtain ⟨_, isOther, ⟨other, others⟩⟩ := opens (text ++ tail) within isWithin
  have same : ∀ longer, longer = text ++ tail → ∀ parsed : Parsed α longer,
      higher.read longer = .ok parsed → parsed.value = value ∧ parsed.rest = rest ++ tail := by
    rintro _ rfl parsed isParsed
    obtain rfl := Except.ok.inj (isLonger.symm.trans isParsed)
    exact ⟨rfl, rfl⟩
  obtain ⟨sameValue, sameRest⟩ := same _ (List.append_nil _) _ isOther
  exact ⟨sameValue, (List.append_nil others).symm.trans sameRest⟩

theorem ofText_eq_ok_iff
    {decoder : Nat → Decoder α}
    {text : String}
    {value : α} :
    ofText decoder text = .ok value ↔
      ∃ parsed, (decoder textDepth).read text.toList = .ok parsed ∧
        ahead parsed.rest = .nothing ∧ parsed.value = value := by
  unfold ofText
  rw [bind_eq_ok_iff]
  apply exists_congr
  intro parsed
  apply and_congr_right
  intro _
  cases ahead parsed.rest with
  | nothing => simp [pure, Except.pure]
  | char first rest short => simp [TextFault.raise]

/-- A record begins with an opening bracket. -/
theorem opening_of_record
    {title : String}
    {initial : σ}
    {fields : Option (Unit → List (Field σ))}
    {parsed : Parsed σ text}
    (isRead : (record title initial fields).read text = .ok parsed) :
    ∃ first rest, Text.skipBlanks text = first :: rest ∧ (first = '[' ∨ first = '\x7b') := by
  simp only [record] at isRead
  cases isVisible : Text.skipBlanks text with
  | nil =>
    obtain ⟨inner, _⟩ := Reader.of_afterBlanks isVisible isRead
    exact absurd rfl inner.ne_nil
  | cons first rest =>
    refine ⟨first, rest, rfl, ?_⟩
    obtain ⟨inner, isInner, _⟩ := Reader.of_afterBlanks isVisible isRead
    by_contra isOther
    obtain ⟨isSquare, isCurly⟩ := not_or.1 isOther
    cases fields with
    | none =>
      simp only [List.cons.injEq, isSquare, isCurly, false_and, IsEmpty.forall_iff, imp_false,
        not_true_eq_false, implies_true] at isInner
      exact Reader.unexpected_ne_ok title inner isInner
    | some content =>
      simp only [List.cons.injEq, isSquare, isCurly, false_and, Option.some.injEq, imp_false,
        IsEmpty.forall_iff, implies_true] at isInner
      exact Reader.unexpected_ne_ok title inner isInner

/-- The items of a list are read behind its bracket. -/
theorem items_of_list
    {content : Unit → Decoder α}
    {parsed : Parsed (List α) text}
    (opens : Text.skipBlanks text = '[' :: rest)
    (isRead : (list (some content)).read text = .ok parsed) :
    ∃ items, Reader.items (content ()).read rest = .ok items ∧ items.value = parsed.value := by
  simp only [list] at isRead
  obtain ⟨inner, isInner, sameValue, _⟩ := Reader.of_afterBlanks opens isRead
  obtain ⟨items, isItems, isParsed⟩ := bind_eq_ok_iff.1 isInner
  obtain rfl := Except.ok.inj isParsed
  exact ⟨items, isItems, sameValue⟩

end Decoder

/-- An item that a closing bracket follows is the only one. -/
theorem Reader.exists_only_of_items
    {item : Reader α}
    {items : Parsed (List α) text}
    (isVisible : Text.skipBlanks text = first :: rest)
    (shows : first ≠ ']')
    (isRead : Reader.items item text = .ok items) :
    ∃ one, item text = .ok one ∧
      ∀ tail, Text.skipBlanks one.rest = ']' :: tail → items.value = [one.value] := by
  obtain ⟨short, isAhead⟩ := ahead_eq_char_iff.2 isVisible
  unfold Reader.items at isRead
  simp only [isAhead] at isRead
  obtain ⟨one, isOne, isRead⟩ := bind_eq_ok_iff.1 isRead
  obtain ⟨others, isOthers, isItems⟩ := bind_eq_ok_iff.1 isRead
  refine ⟨one, isOne, ?_⟩
  intro tail isClosed
  obtain ⟨closedShort, isEnd⟩ := ahead_eq_char_iff.2 isClosed
  rw [moreItems] at isOthers
  simp only [isEnd] at isOthers
  obtain rfl := Except.ok.inj isOthers
  obtain rfl := Except.ok.inj isItems
  rfl

/-- A list of what a text holds by itself has that as its only item. -/
theorem Decoder.list_of_single
    {lower higher : Decoder α}
    {alone : Parsed α text}
    {array before after : List Char}
    {all : Parsed (List α) array}
    (follows : Extends (']' :: after) higher higher)
    (opens : Extends [] lower higher)
    (isAlone : higher.read text = .ok alone)
    (isEnd : ahead alone.rest = .nothing)
    (isVisible : Text.skipBlanks text = first :: rest)
    (shows : first ≠ ']')
    (blank : ∀ char ∈ before, Text.isTokenBlank char = true)
    (isArray : array = before ++ '[' :: (text ++ ']' :: after))
    (isAll : (list (some fun _ => lower)).read array = .ok all) :
    all.value = [alone.value] := by
  have isOpen : Text.skipBlanks array = '[' :: (text ++ ']' :: after) := by
    rw [isArray, Text.skipBlanks, List.dropWhile_append_of_pos blank]
    rfl
  have isLonger : Text.skipBlanks (text ++ ']' :: after) = first :: (rest ++ ']' :: after) := by
    rw [skipBlanks_append (isVisible ▸ List.cons_ne_nil first rest), isVisible, List.cons_append]
  obtain ⟨items, isItems, sameItems⟩ := items_of_list isOpen isAll
  obtain ⟨one, isOne, isOnly⟩ := Reader.exists_only_of_items isLonger shows isItems
  obtain ⟨sameValue, sameRest⟩ := follows.agree opens isAlone isOne
  have isClosed : Text.skipBlanks one.rest = ']' :: after := by
    have nothing := ahead_eq_nothing_iff.1 isEnd
    unfold Text.skipBlanks at nothing ⊢
    rw [sameRest, List.dropWhile_append, if_pos (by simp [nothing])]
    rfl
  rw [← sameItems, isOnly after isClosed, sameValue]

namespace Loading

/-- A text is an array of what another text holds: that in brackets, with blanks around them. -/
def IsArrayOf (text array : String) : Prop :=
  ∃ before after, (∀ char ∈ before, Text.isTokenBlank char = true) ∧
    (∀ char ∈ after, Text.isTokenBlank char = true) ∧
    array.toList = before ++ '[' :: (text.toList ++ ']' :: after)

theorem isArrayText_of_isArrayOf
    {text array : String}
    (isArray : IsArrayOf text array) :
    isArrayText array = true := by
  obtain ⟨before, after, blank, _, isText⟩ := isArray
  unfold isArrayText
  rw [isText, List.dropWhile_append_of_pos fun char member =>
    Text.isBlank_of_isTokenBlank (blank char member)]
  rfl

/-- One definition is the only one of an array of it, if both are decoded. -/
theorem definitions_of_isArrayOf
    {text array : String}
    {found others : List RuleDefinition}
    (isArray : IsArrayOf text array)
    (single : isArrayText text = false)
    (alone : definitions text = .ok found)
    (within : definitions array = .ok others) :
    others = found := by
  have isArrayShown := isArrayText_of_isArrayOf isArray
  obtain ⟨before, after, blank, _, isText⟩ := isArray
  rw [definitions, if_neg (by simp [single])] at alone
  rw [definitions, if_pos isArrayShown] at within
  obtain ⟨definition, isDefinition, rfl⟩ := exists_of_map alone
  obtain ⟨one, isOne, isEnd, rfl⟩ := Decoder.ofText_eq_ok_iff.1 isDefinition
  obtain ⟨all, isAll, _, rfl⟩ := Decoder.ofText_eq_ok_iff.1 within
  have isList : (Decoder.list (some fun _ => RuleDefinition.decoder 126)).read array.toList =
      .ok all := isAll
  obtain ⟨first, rest, isVisible, isOpening⟩ := Decoder.opening_of_record isOne
  have shows : first ≠ ']' := by
    rcases isOpening with rfl | rfl
    · decide
    · decide
  have closes : Closes (']' :: after) := by
    intro char isFirst
    exact (Option.some.inj isFirst).symm
  have closesNothing : Closes [] := nofun
  have follows := RuleDefinition.extends_decoder closes (Nat.le_refl Decoder.textDepth)
  have opens := RuleDefinition.extends_decoder closesNothing (Nat.le_succ 126)
  rw [Decoder.list_of_single follows opens isOne isEnd isVisible shows blank isText isList]

/-! ## Rules of a text -/

/-- What comes of handling items one after the other: what all of them give, in their order,
or the error of the first one that fails. -/
structure Gathers {ε β γ : Type} (handle : α → Except ε β) (items : List α) (combine : List β → γ)
    (outcome : Except ε γ) : Prop where
  ok_iff : ∀ result, outcome = .ok result ↔
    ∃ results, List.Forall₂ (fun item part => handle item = .ok part) items results ∧
      combine results = result
  error_iff : ∀ error, outcome = .error error ↔
    ∃ before item after, items = before ++ item :: after ∧
      (∀ earlier ∈ before, ∃ part, handle earlier = .ok part) ∧ handle item = .error error

theorem gathers_mapM
    {ε β γ : Type}
    (handle : α → Except ε β)
    (items : List α)
    (combine : List β → γ) :
    Gathers handle items combine ((items.mapM handle).map combine) where
  ok_iff result := by
    constructor
    · intro isOk
      obtain ⟨results, isHandled, isResult⟩ := exists_of_map isOk
      exact ⟨results, mapM_eq_ok_iff.1 isHandled, isResult⟩
    · rintro ⟨results, areHandled, rfl⟩
      rw [mapM_eq_ok_iff.2 areHandled]
      rfl
  error_iff error := by
    rw [map_eq_error_iff, mapM_eq_error_iff]

/-- What becomes of the definitions in a text. If the text cannot be decoded, its fault is the
error, whatever the definitions before the fault are. Otherwise all definitions are converted in
their order, and the first that cannot be converted gives the error. The only definition of a text
that is not an array gives what an array of it gives. -/
structure ParsesInOrder (text : String) (outcome : Except Error (List Rule)) : Prop where
  undecoded : ∀ fault, definitions text = .error fault → outcome = .error (.json fault)
  decoded : ∀ found, definitions text = .ok found →
    Gathers RuleDefinition.toRule found id outcome
  asArray : isArrayText text = false → (∃ found, definitions text = .ok found) →
    ∀ array, IsArrayOf text array → (∃ found, definitions array = .ok found) →
      parse array = outcome

theorem parsesInOrder_parse (text : String) : ParsesInOrder text (parse text) where
  undecoded fault isFault := by
    rw [parse, isFault]
    rfl
  decoded found isFound := by
    have isParsed : parse text = (found.mapM RuleDefinition.toRule).map id := by
      rw [parse, isFound]
      change found.mapM RuleDefinition.toRule = _
      cases found.mapM RuleDefinition.toRule <;> rfl
    rw [isParsed]
    exact gathers_mapM _ _ _
  asArray single alone array isArray within := by
    obtain ⟨found, alone⟩ := alone
    obtain ⟨others, within⟩ := within
    rw [parse, parse, alone, within, definitions_of_isArrayOf isArray single alone within]

/-! ## Files of a directory -/

/-- A file of this name holds rules: its extension is `json`, and something stands before it. -/
def IsRuleFile (name : String) : Prop :=
  ∃ stem, stem ≠ "" ∧ name = stem ++ ".json"

theorem endsWith_iff {text ending : String} :
    text.endsWith ending = true ↔ ∃ stem, text = stem ++ ending := by
  rw [← String.endsWith_toSlice, String.Slice.endsWith_string_iff, String.copy_toSlice]
  constructor
  · rintro ⟨stem, isText⟩
    refine ⟨String.ofList stem, String.toList_injective ?_⟩
    rw [String.toList_append, String.toList_ofList, isText]
  · rintro ⟨stem, rfl⟩
    rw [String.toList_append]
    exact List.suffix_append _ _

theorem isRuleFileName_iff {name : String} : isRuleFileName name = true ↔ IsRuleFile name := by
  rw [isRuleFileName, Bool.and_eq_true, endsWith_iff, bne_iff_ne]
  constructor
  · rintro ⟨⟨stem, rfl⟩, shows⟩
    refine ⟨stem, ?_, rfl⟩
    rintro rfl
    exact shows rfl
  · rintro ⟨stem, shows, rfl⟩
    refine ⟨⟨stem, rfl⟩, ?_⟩
    intro isEnding
    have letters : stem.toList ++ ".json".toList = ".json".toList := by
      rw [← String.toList_append, isEnding]
    exact shows (String.toList_eq_nil_iff.1 (List.append_cancel_right letters))

/-- The files of a directory that hold rules, each of them once, in the byte order of their
names. -/
structure IsListing (entries : List (String × FileTree)) (files : List (String × ByteArray)) :
    Prop where
  mem_iff : ∀ name bytes, (name, bytes) ∈ files ↔
    (name, FileTree.file bytes) ∈ entries ∧ IsRuleFile name
  ordered : files.Pairwise fun lower higher => Text.bytes lower.1 < Text.bytes higher.1

variable {entries : List (String × FileTree)}

theorem mem_ruleFiles_iff {name : String} {tree : FileTree} :
    (name, tree) ∈ ruleFiles entries ↔
      (name, tree) ∈ entries ∧ (∃ bytes, tree = .file bytes) ∧ IsRuleFile name := by
  rw [ruleFiles, List.mem_mergeSort, List.mem_filter]
  apply and_congr_right
  intro _
  cases tree with
  | file bytes => simp [isRuleFileName_iff]
  | directory entries => simp

theorem ruleFiles_perm (entries : List (String × FileTree)) :
    ∃ kept : List (String × FileTree), kept.Sublist entries ∧ (ruleFiles entries).Perm kept :=
  ⟨_, List.filter_sublist, List.mergeSort_perm _ _⟩

theorem nodup_ruleFiles (distinct : (entries.map Prod.fst).Nodup) :
    ((ruleFiles entries).map Prod.fst).Nodup := by
  obtain ⟨kept, isPart, isPerm⟩ := ruleFiles_perm entries
  rw [(isPerm.map Prod.fst).nodup_iff]
  exact distinct.sublist (isPart.map Prod.fst)

theorem pairwise_ruleFiles (entries : List (String × FileTree)) :
    (ruleFiles entries).Pairwise fun lower higher => lower.1 ≤ higher.1 := by
  have sorted : (ruleFiles entries).Pairwise fun lower higher =>
      decide (lower.1 ≤ higher.1) = true := by
    apply List.pairwise_mergeSort
    · intro left middle right
      simpa using String.le_trans
    · intro left right
      simpa using String.le_total left.1 right.1
  simpa using sorted

/-- The order in which the entries of a directory are listed makes no difference. -/
theorem ruleFiles_of_perm
    {others : List (String × FileTree)}
    (distinct : (entries.map Prod.fst).Nodup)
    (reordered : others.Perm entries) :
    ruleFiles others = ruleFiles entries := by
  have isPerm : (ruleFiles others).Perm (ruleFiles entries) :=
    (List.mergeSort_perm _ _).trans ((reordered.filter _).trans (List.mergeSort_perm _ _).symm)
  apply List.Perm.eq_of_pairwise _ (pairwise_ruleFiles others) (pairwise_ruleFiles entries) isPerm
  intro left right isLeft isRight below above
  apply List.inj_on_of_nodup_map (nodup_ruleFiles distinct) (isPerm.mem_iff.1 isLeft) isRight
  exact String.le_antisymm below above

theorem exists_isListing (distinct : (entries.map Prod.fst).Nodup) :
    ∃ files, ruleFiles entries = files.map (Prod.map id FileTree.file) ∧
      IsListing entries files := by
  have areFiles : ruleFiles entries ∈ Set.range (List.map (Prod.map id FileTree.file)) := by
    rw [Set.range_list_map]
    rintro ⟨name, tree⟩ member
    obtain ⟨_, ⟨bytes, rfl⟩, _⟩ := mem_ruleFiles_iff.1 member
    exact ⟨(name, bytes), rfl⟩
  obtain ⟨files, isFiles⟩ := areFiles
  refine ⟨files, isFiles.symm, ?_, ?_⟩
  · intro name bytes
    have injective : Function.Injective (Prod.map (id : String → String) FileTree.file) := by
      rintro ⟨left, leftBytes⟩ ⟨right, rightBytes⟩ same
      simpa using same
    have asEntry : (name, bytes) ∈ files ↔ (name, FileTree.file bytes) ∈ ruleFiles entries := by
      rw [← isFiles]
      exact (List.mem_map_of_injective injective).symm
    rw [asEntry, mem_ruleFiles_iff]
    simp
  · have distinctFiles := List.pairwise_map.1 (nodup_ruleFiles distinct)
    have ordered := (pairwise_ruleFiles entries).and distinctFiles
    rw [← isFiles, List.pairwise_map] at ordered
    apply ordered.imp
    rintro lower higher ⟨below, different⟩
    rw [← Text.lt_iff_bytes_lt]
    exact lt_of_le_of_ne below different

/-- What becomes of a file that holds rules: its text counts, if its bytes are one. -/
structure LoadsText (path : String) (bytes : ByteArray) (outcome : Except Error (List Rule)) :
    Prop where
  notText : String.fromUTF8? bytes = none → outcome = .error (.file path .notText)
  text : ∀ text, String.fromUTF8? bytes = some text → ParsesInOrder text outcome

theorem loadsText_loadFile (path : String) (bytes : ByteArray) :
    LoadsText path bytes (loadFile path (.ok (.file bytes))) where
  notText isNone := by
    have fails : FileTree.readText (.file bytes) = .error .notText := by
      simp only [FileTree.readText, isNone]
    simp only [loadFile, readText, Except.bind, fails]
    rfl
  text text isText := by
    have reads : FileTree.readText (.file bytes) = .ok text := by
      simp only [FileTree.readText, isText]
    have isParsed : loadFile path (.ok (.file bytes)) = parse text := by
      simp only [loadFile, readText, Except.bind, reads]
      rfl
    rw [isParsed]
    exact parsesInOrder_parse text

theorem loadPath_eq
    {files : List (String × ByteArray)}
    (path : String)
    (areListed : ruleFiles entries = files.map (Prod.map id FileTree.file)) :
    loadPath path (.ok (.directory entries)) =
      (files.mapM fun file => loadFile (entryPath path file.1) (.ok (.file file.2))).map
        List.flatten := by
  have asFiles : (ruleFiles entries).mapM (fun entry =>
      loadFile (entryPath path entry.1) (.ok entry.2)) =
        files.mapM fun file => loadFile (entryPath path file.1) (.ok (.file file.2)) := by
    rw [areListed, List.mapM_map]
    rfl
  rw [← asFiles]
  unfold loadPath
  simp only
  cases (ruleFiles entries).mapM fun entry => loadFile (entryPath path entry.1) (.ok entry.2)
  · rfl
  · rfl

/-- A directory is loaded exactly if each of its rule files is. Then all their rules are loaded,
file by file in the byte order of the names, and otherwise the first of these files that fails
gives the error. In a file all definitions are converted, in the order of the text, once the whole
text is decoded. None of this depends on the order in which the entries are listed. -/
theorem loaded_in_name_order
    {path : String}
    {entries : List (String × FileTree)}
    (distinct : (entries.map Prod.fst).Nodup) :
    (∃ files, IsListing entries files ∧
      Gathers (fun file => loadFile (entryPath path file.1) (.ok (.file file.2))) files
        List.flatten (loadPath path (.ok (.directory entries))) ∧
      ∀ file ∈ files, LoadsText (entryPath path file.1) file.2
        (loadFile (entryPath path file.1) (.ok (.file file.2)))) ∧
    ((∃ rules, loadPath path (.ok (.directory entries)) = .ok rules) ↔
      ∀ name bytes, (name, FileTree.file bytes) ∈ entries → IsRuleFile name →
        ∃ rules, loadFile (entryPath path name) (.ok (.file bytes)) = .ok rules) ∧
    ∀ others : List (String × FileTree), others.Perm entries →
      loadPath path (.ok (.directory others)) = loadPath path (.ok (.directory entries)) := by
  obtain ⟨files, areListed, isListing⟩ := exists_isListing distinct
  have isLoaded := loadPath_eq path areListed
  refine ⟨⟨files, isListing, ?_, ?_⟩, ?_, ?_⟩
  · rw [isLoaded]
    exact gathers_mapM _ _ _
  · exact fun file _ => loadsText_loadFile _ _
  · rw [isLoaded, exists_map_iff, exists_mapM_iff]
    constructor
    · intro allLoad name bytes isEntry isRuleFile
      exact allLoad (name, bytes) ((isListing.mem_iff name bytes).2 ⟨isEntry, isRuleFile⟩)
    · rintro allLoad ⟨name, bytes⟩ isFile
      obtain ⟨isEntry, isRuleFile⟩ := (isListing.mem_iff name bytes).1 isFile
      exact allLoad name bytes isEntry isRuleFile
  · intro others reordered
    have sameFiles := ruleFiles_of_perm distinct reordered
    rw [isLoaded, loadPath_eq path (sameFiles.trans areListed)]

/-- The definition of a rule that holds, of a given name. -/
def holding (name : String) : String :=
  "\x7b\"name\":\"" ++ name ++ "\",\"conditions\":\x7b\"all\":[]\x7d," ++
    "\"event\":\x7b\"type\":\"holds\"\x7d\x7d"

/-- A directory with two files that hold rules, a file that does not and a directory. -/
def mixed (first last : ByteArray) : List (String × FileTree) :=
  [("b.json", .file last), ("notes.txt", .file ⟨#[0xff]⟩), ("a.json", .file first),
    ("old.json", .directory [])]

theorem ruleFiles_mixed (first last : ByteArray) :
    ruleFiles (mixed first last) =
      [("a.json", first), ("b.json", last)].map (Prod.map id FileTree.file) := by
  have kept : ruleFiles (mixed first last) =
      [("b.json", FileTree.file last), ("a.json", .file first)].mergeSort
        fun left right => left.1 ≤ right.1 := by
    have ofRules : isRuleFileName "a.json" = true ∧ isRuleFileName "b.json" = true := by
      decide +kernel
    have ofNotes : isRuleFileName "notes.txt" = false := by
      decide +kernel
    simp [ruleFiles, mixed, ofRules, ofNotes]
  have above : ¬"b.json" ≤ "a.json" := by
    decide
  rw [kept]
  simp [List.mergeSort, above]

/-- The rules of both files are loaded, in whatever order the directory is listed, and none of them
is when one of the files is not a text. -/
theorem loaded_mixed :
    let first := ("[" ++ holding "first" ++ "," ++ holding "second" ++ "]").toUTF8
    let last := (holding "last").toUTF8
    (∃ files, IsListing (mixed first last) files ∧
      Gathers (fun file => loadFile (entryPath "rules" file.1) (.ok (.file file.2))) files
        List.flatten (loadPath "rules" (.ok (.directory (mixed first last))))) ∧
    (loadPath "rules" (.ok (.directory (mixed first last)))).map (·.map Rule.name) =
      .ok ["first", "second", "last"] ∧
    loadPath "rules" (.ok (.directory (mixed first last).reverse)) =
      loadPath "rules" (.ok (.directory (mixed first last))) ∧
    (loadPath "rules" (.ok (.directory (mixed ⟨#[0xff]⟩ last)))).map (·.map Rule.name) =
      .error (.file "rules/a.json" .notText) := by
  intro first last
  have distinct : ((mixed first last).map Prod.fst).Nodup := by
    change ["b.json", "notes.txt", "a.json", "old.json"].Nodup
    decide
  obtain ⟨⟨files, isListing, gathers, _⟩, _, reordered⟩ := loaded_in_name_order distinct
  refine ⟨⟨files, isListing, gathers⟩, ?_, reordered _ (List.reverse_perm _), ?_⟩
  · rw [loadPath_eq "rules" (ruleFiles_mixed first last)]
    decide +kernel
  · rw [loadPath_eq "rules" (ruleFiles_mixed ⟨#[0xff]⟩ last)]
    decide +kernel

end Loading

end Verdict
