import Mathlib.Data.List.Dedup
import Mathlib.Data.List.Forall2
import Mathlib.Data.List.Induction
import Verdict.Proofs.ByteOrder
import Verdict.Proofs.RoundTrip

/-!
# Facts as a finite map

Facts come about from nothing, from an object or from a list of pairs, and are added to one by
one. However that is done, they are the finite map of all writes: a name has the value that was
written last under it, and two stores with the same last values are equal, whatever the order
of the writes was.

This rests on two facts about dictionaries. A key has the value last inserted under it, and
entries in strictly increasing order of their keys are determined by what is looked up in them.
-/

namespace Verdict

/-! ## Entries in order -/

/-- The keys of entries are in strictly increasing order. -/
abbrev IsOrdered {α : Type} (entries : List (String × α)) : Prop :=
  entries.Pairwise fun earlier later => earlier.1 < later.1

namespace IsOrdered

variable {α β : Type} {entries : List (String × α)} {others : List (String × β)}
  {first : String × α} {key : String}

theorem lookup_eq_none_of_le
    (ordered : IsOrdered (first :: entries))
    (atMost : key ≤ first.1) :
    entries.lookup key = none := by
  rw [List.lookup_eq_none_iff]
  intro entry member
  have behind : first.1 < entry.1 := List.rel_of_pairwise_cons ordered member
  simpa using String.ne_of_lt (Std.lt_of_le_of_lt atMost behind)

theorem lookup_eq_none_of_lt
    (ordered : IsOrdered (first :: entries))
    (before : key < first.1) :
    (first :: entries).lookup key = none := by
  rw [Dictionary.lookup_cons_eq_ite, if_neg (String.ne_of_lt before)]
  exact ordered.lookup_eq_none_of_le (Std.le_of_lt before)

/-- An entry is what its key is looked up as. -/
theorem mem_iff_lookup
    (ordered : IsOrdered entries)
    (value : α) :
    (key, value) ∈ entries ↔ entries.lookup key = some value := by
  induction entries with
  | nil => simp
  | cons entry rest inductionHypothesis =>
    obtain ⟨name, found⟩ := entry
    rw [List.mem_cons, Dictionary.lookup_cons_eq_ite, inductionHypothesis ordered.of_cons]
    by_cases same : key = name
    · subst same
      simp [ordered.lookup_eq_none_of_le (String.le_refl _), eq_comm]
    · simp [same]

theorem nodup_keys (ordered : IsOrdered entries) : (entries.map (·.1)).Nodup := by
  rw [List.nodup_iff_pairwise_ne, List.pairwise_map]
  exact ordered.imp String.ne_of_lt

/-- Ordered entries of which the same keys have related values are related one by one. -/
theorem forall₂_iff
    (ordered : IsOrdered entries)
    (othersOrdered : IsOrdered others)
    (related : α → β → Prop) :
    List.Forall₂ (fun entry other => entry.1 = other.1 ∧ related entry.2 other.2) entries others ↔
      ∀ key, Option.Rel related (entries.lookup key) (others.lookup key) := by
  induction entries generalizing others with
  | nil =>
    rw [List.forall₂_nil_left_iff]
    constructor
    · rintro rfl key
      exact .none
    · intro agree
      cases others with
      | nil => rfl
      | cons other rest =>
        have atFirst := agree other.1
        simp [Dictionary.lookup_cons_eq_ite] at atFirst
  | cons entry rest inductionHypothesis =>
    cases others with
    | nil =>
      constructor
      · exact nofun
      · intro agree
        have atFirst := agree entry.1
        simp [Dictionary.lookup_cons_eq_ite] at atFirst
    | cons other otherRest =>
      rw [List.forall₂_cons, inductionHypothesis ordered.of_cons othersOrdered.of_cons]
      constructor
      · rintro ⟨⟨sameKey, relatedFirst⟩, agree⟩ key
        rw [Dictionary.lookup_cons_eq_ite, Dictionary.lookup_cons_eq_ite, sameKey]
        split
        · exact .some relatedFirst
        · exact agree key
      · intro agree
        -- each first key is among the other entries, so neither one stands before the other
        have notBefore : ¬entry.1 < other.1 := by
          intro before
          have atFirst := agree entry.1
          rw [othersOrdered.lookup_eq_none_of_lt before] at atFirst
          simp [Dictionary.lookup_cons_eq_ite] at atFirst
        have notBehind : ¬other.1 < entry.1 := by
          intro before
          have atFirst := agree other.1
          rw [ordered.lookup_eq_none_of_lt before] at atFirst
          simp [Dictionary.lookup_cons_eq_ite] at atFirst
        have sameKey : entry.1 = other.1 :=
          String.le_antisymm (String.not_lt.1 notBehind) (String.not_lt.1 notBefore)
        refine ⟨⟨sameKey, ?_⟩, fun key => ?_⟩
        · have atFirst := agree entry.1
          simpa [Dictionary.lookup_cons_eq_ite, sameKey] using atFirst
        · have atKey := agree key
          rw [Dictionary.lookup_cons_eq_ite, Dictionary.lookup_cons_eq_ite, sameKey] at atKey
          by_cases same : key = other.1
          · rw [ordered.lookup_eq_none_of_le (by simp [same, sameKey]),
              othersOrdered.lookup_eq_none_of_le (by simp [same])]
            exact .none
          · simpa [same] using atKey

end IsOrdered

/-! ## Dictionaries -/

namespace Dictionary

variable {α β : Type}

/-- The value that was written last under a key. -/
def lastWritten (writes : List (String × α)) (key : String) : Option α :=
  writes.reverse.lookup key

theorem ofList_concat
    (writes : List (String × α))
    (key : String)
    (value : α) :
    ofList (writes ++ [(key, value)]) = (ofList writes).insert key value := by
  simp [ofList]

theorem lastWritten_concat
    (writes : List (String × α))
    (key other : String)
    (value : α) :
    lastWritten (writes ++ [(key, value)]) other =
      if other = key then some value else lastWritten writes other := by
  simp [lastWritten, lookup_cons_eq_ite]

/-- A key has the value that was written last under it. -/
theorem get?_ofList
    (writes : List (String × α))
    (key : String) :
    (ofList writes).get? key = lastWritten writes key := by
  induction writes using List.reverseRecOn with
  | nil => rfl
  | append_singleton writes write inductionHypothesis =>
    obtain ⟨name, value⟩ := write
    rw [ofList_concat, get?_insert, lastWritten_concat, inductionHypothesis]

theorem lastWritten_isSome_iff
    (writes : List (String × α))
    (key : String) :
    (lastWritten writes key).isSome ↔ key ∈ writes.map (·.1) := by
  induction writes using List.reverseRecOn with
  | nil => simp [lastWritten]
  | append_singleton writes write inductionHypothesis =>
    obtain ⟨name, value⟩ := write
    rw [lastWritten_concat, List.map_append, List.mem_append, ← inductionHypothesis]
    by_cases same : key = name
    · simp [same]
    · simp [same]

theorem mem_entries_iff
    (dictionary : Dictionary α)
    (key : String)
    (value : α) :
    (key, value) ∈ dictionary.entries ↔ dictionary.get? key = some value :=
  IsOrdered.mem_iff_lookup dictionary.sorted value

/-- Dictionaries are determined by what is looked up in them. -/
theorem eq_of_get?
    {left right : Dictionary α}
    (same : ∀ key, left.get? key = right.get? key) :
    left = right := by
  apply eq_of_entries
  rw [← List.forall₂_eq_eq_eq]
  have agree : ∀ key, Option.Rel Eq (left.get? key) (right.get? key) := by
    intro key
    rw [same key]
    cases right.get? key with
    | none => exact .none
    | some value => exact .some rfl
  have related := (IsOrdered.forall₂_iff left.sorted right.sorted Eq).2 agree
  exact related.imp fun entry other ⟨sameKey, sameValue⟩ => Prod.ext sameKey sameValue

/-- There are as many entries as keys were written. -/
theorem size_ofList (writes : List (String × α)) :
    (ofList writes).size = (writes.map (·.1)).dedup.length := by
  rw [size, ← List.length_map (f := (·.1))]
  apply List.Perm.length_eq
  rw [List.perm_ext_iff_of_nodup (IsOrdered.nodup_keys (ofList writes).sorted)
    (List.nodup_dedup _)]
  intro key
  rw [List.mem_dedup, ← lastWritten_isSome_iff writes, ← get?_ofList writes,
    Option.isSome_iff_exists, List.mem_map]
  constructor
  · rintro ⟨entry, member, rfl⟩
    exact ⟨entry.2, (mem_entries_iff _ _ _).1 member⟩
  · rintro ⟨value, found⟩
    exact ⟨(key, value), (mem_entries_iff _ _ _).2 found, rfl⟩

end Dictionary

namespace Json

theorem sameMembers_iff (left right : List (String × Json)) :
    sameMembers left right = true ↔
      List.Forall₂ (fun member other => member.1 = other.1 ∧ member.2.same other.2 = true)
        left right := by
  induction left generalizing right with
  | nil => cases right <;> simp [sameMembers]
  | cons member rest inductionHypothesis =>
    cases right with
    | nil => simp [sameMembers]
    | cons other others => simp [sameMembers, inductionHypothesis, List.forall₂_cons]

/-- Dictionaries are equal if they have equal values for all keys. -/
theorem sameDictionary_iff (left right : Dictionary Json) :
    sameDictionary left right = true ↔
      ∀ key, Option.Rel (fun value other => value.same other = true)
        (left.get? key) (right.get? key) := by
  unfold sameDictionary
  rw [sameMembers_iff]
  exact IsOrdered.forall₂_iff left.sorted right.sorted fun value other => value.same other = true

end Json

/-! ## Facts -/

namespace Facts

open Dictionary

/-- Facts come about by writes, listed in their order: those of an object or of a list of pairs,
if not none at all, and then those of facts that are added. -/
inductive Built : List (String × Json) → Facts → Prop
  | empty : Built [] ∅
  | ofJson {members : List (String × Json)} {facts : Facts} :
    Facts.ofJson (.object members) = .ok facts → Built members facts
  | ofList (pairs : List (String × Json)) : Built pairs (.ofList pairs)
  | add {writes : List (String × Json)} {facts : Facts} (name : String) (value : Json) :
    Built writes facts → Built (writes ++ [(name, value)]) (facts.add name value)

variable {writes : List (String × Json)} {facts : Facts} {name : String}

theorem ofList_concat
    (writes : List (String × Json))
    (name : String)
    (value : Json) :
    ofList (writes ++ [(name, value)]) = (ofList writes).add name value :=
  congrArg Facts.mk (Dictionary.ofList_concat writes name value)

/-- Facts that come about in different ways by the same writes are the same. -/
theorem Built.eq_ofList (built : Built writes facts) : facts = .ofList writes := by
  induction built with
  | empty => rfl
  | ofJson made => exact (Except.ok.inj made).symm
  | ofList pairs => rfl
  | add name value built inductionHypothesis =>
    rw [inductionHypothesis, ofList_concat]

theorem Built.get?_values
    (built : Built writes facts)
    (name : String) :
    facts.values.get? name = lastWritten writes name := by
  rw [built.eq_ofList]
  exact get?_ofList writes name

/-- Without a path, a look-up gives the value of a name unless it is null. -/
theorem get_none (facts : Facts) (name : String) :
    facts.get name none = .ok (facts.lookup name) := by
  unfold get
  cases facts.lookup name <;> rfl

theorem lookup_add_of_ne
    {other : String}
    (facts : Facts)
    (value : Json)
    (different : other ≠ name) :
    (facts.add name value).lookup other = facts.lookup other := by
  simp [lookup, add, get?_insert, different]

theorem ofJson_snapshot (facts : Facts) : ofJson facts.snapshot = .ok facts :=
  congrArg (fun values => Except.ok (Facts.mk values)) (ofList_entries facts.values)

theorem ofList_eq_foldl (pairs : List (String × Json)) :
    ofList pairs = pairs.foldl (fun facts pair => facts.add pair.1 pair.2) ∅ := by
  induction pairs using List.reverseRecOn with
  | nil => rfl
  | append_singleton pairs pair inductionHypothesis =>
    rw [List.foldl_concat, ← inductionHypothesis, ofList_concat]

/-- Facts are the finite map of the writes by which they came about. A look-up gives what was
written last under a name, a null counting as absent though its name is present, and no write
is seen under another name. There are as many facts as names, listed once each in the order of
their bytes, and the object of all facts gives them back. Facts are equal if the last values
are, so the order of writes does not count. -/
theorem built_as_last_written (built : Built writes facts) :
    (∀ name, lastWritten writes name = none →
      facts.get name none = .ok none ∧ facts.contains name = false) ∧
    (∀ name, lastWritten writes name = some .null →
      facts.get name none = .ok none ∧ facts.contains name = true) ∧
    (∀ name value, lastWritten writes name = some value → value ≠ .null →
      facts.get name none = .ok (some value) ∧ facts.contains name = true) ∧
    (∀ name value other path, other ≠ name →
      (facts.add name value).get other path = facts.get other path ∧
        (facts.add name value).contains other = facts.contains other) ∧
    facts.size = (writes.map (·.1)).dedup.length ∧
    facts.toList.Pairwise (fun earlier later => Text.bytes earlier.1 < Text.bytes later.1) ∧
    (∀ name value, (name, value) ∈ facts.toList ↔ lastWritten writes name = some value) ∧
    facts.snapshot = .object facts.toList ∧
    ofJson facts.snapshot = .ok facts ∧
    (∀ otherWrites other, Built otherWrites other →
      ((∀ name, lastWritten writes name = lastWritten otherWrites name) → facts = other) ∧
        (Json.sameDictionary facts.values other.values = true ↔
          ∀ name, Option.Rel (fun value otherValue => value.same otherValue = true)
            (lastWritten writes name) (lastWritten otherWrites name))) ∧
    ∀ pairs, ofList pairs = pairs.foldl (fun facts pair => facts.add pair.1 pair.2) ∅ := by
  have found := built.get?_values
  refine ⟨?absent, ?null, ?present, ?others, ?size, ?ordered, ?listed, rfl, ofJson_snapshot facts,
    ?equal, ofList_eq_foldl⟩
  case absent =>
    intro name last
    simp [get_none, lookup, contains, Dictionary.contains, found, last]
  case null =>
    intro name last
    simp [get_none, lookup, contains, Dictionary.contains, found, last]
  case present =>
    intro name value last notNull
    simp [get_none, lookup, contains, Dictionary.contains, found, last, notNull]
  case others =>
    intro name value other path different
    constructor
    · simp [get, lookup_add_of_ne facts value different]
    · simp [contains, add, Dictionary.contains, get?_insert, different]
  case size =>
    rw [built.eq_ofList]
    exact size_ofList writes
  case ordered =>
    exact facts.values.sorted.imp fun before => (Text.lt_iff_bytes_lt _ _).1 before
  case listed =>
    intro name value
    rw [← found, ← mem_entries_iff]
    rfl
  case equal =>
    intro otherWrites other otherBuilt
    constructor
    · intro same
      have sameValues : facts.values = other.values := by
        apply eq_of_get?
        intro name
        rw [found, otherBuilt.get?_values, same]
      cases facts
      cases other
      exact congrArg Facts.mk sameValues
    · rw [Json.sameDictionary_iff]
      simp only [found, otherBuilt.get?_values]

/-- Facts of which one was written twice and one is null. -/
def rewritten : Facts :=
  ((ofList [("b", .boolean false)]).add "a" .null).add "b" (.boolean true)

theorem built_rewritten :
    Built [("b", .boolean false), ("a", .null), ("b", .boolean true)] rewritten :=
  .add "b" (.boolean true) (.add "a" .null (.ofList [("b", .boolean false)]))

theorem rewritten_as_last_written :
    rewritten.get "c" none = .ok none ∧
      (rewritten.get "a" none = .ok none ∧ rewritten.contains "a" = true) ∧
      rewritten.get "b" none = .ok (some (.boolean true)) ∧
      (rewritten.add "a" (.boolean true)).get "b" none = rewritten.get "b" none ∧
      rewritten.size = 2 ∧
      rewritten = ofList [("b", .boolean true), ("a", .null)] := by
  obtain ⟨absent, null, present, others, size, _, _, _, _, equal, _⟩ :=
    built_as_last_written built_rewritten
  have sameLast : ∀ name,
      lastWritten [("b", Json.boolean false), ("a", .null), ("b", .boolean true)] name =
        lastWritten [("b", .boolean true), ("a", .null)] name := by
    intro name
    by_cases isFirst : name = "b"
    · subst isFirst
      rfl
    · simp [lastWritten, lookup_cons_eq_ite, isFirst]
  exact ⟨(absent "c" rfl).1, null "a" rfl, (present "b" (.boolean true) rfl nofun).1,
    (others "a" (.boolean true) "b" none (by decide)).1, size,
    (equal _ _ (.ofList _)).1 sameLast⟩

end Facts

end Verdict
