import Verdict.Proofs.Execution
import Verdict.Proofs.WellFormed

/-!
# Written rules

What is written of a rule or a clause is read as that rule or clause again. On the
way is a record of which a field may be absent in two ways, by not being there or by
being null: the expected value of a leaf is written also when it is null, is read as
absent, and is null again in the leaf.

A value in memory is decoded with as many brackets to open as it has, so each step
into a value has enough left for what is inside.
-/

namespace Verdict

/-- Items that are each read from what is written of them are so all together. -/
theorem exists_mapM
    {α β γ δ ε : Type}
    {items : List α}
    {write : α → β}
    {read : β → Except ε γ}
    {convert : γ → Except δ α}
    (inside : ∀ item ∈ items,
      ∃ middle, read (write item) = .ok middle ∧ convert middle = .ok item) :
    ∃ middles, (items.map write).mapM read = .ok middles ∧ middles.mapM convert = .ok items := by
  induction items with
  | nil => exact ⟨[], rfl, rfl⟩
  | cons item rest inductionHypothesis =>
    obtain ⟨insideFirst, insideRest⟩ := List.forall_mem_cons.1 inside
    obtain ⟨middle, readFirst, convertFirst⟩ := insideFirst
    obtain ⟨middles, readRest, convertRest⟩ := inductionHypothesis insideRest
    refine ⟨middle :: middles, ?_, ?_⟩
    · rw [List.map_cons, List.mapM_cons, readFirst, readRest]
      rfl
    · rw [List.mapM_cons, convertFirst, convertRest]
      rfl

/-! ## Heights -/

namespace Json

theorem height_le_itemsHeight
    {item : Json}
    {items : List Json}
    (member : item ∈ items) :
    item.height ≤ itemsHeight items := by
  induction items with
  | nil => exact nomatch member
  | cons first rest inductionHypothesis =>
    rw [itemsHeight]
    rcases List.mem_cons.1 member with rfl | inRest
    · exact Nat.le_max_left _ _
    · exact Nat.le_trans (inductionHypothesis inRest) (Nat.le_max_right _ _)

theorem height_le_membersHeight
    {member : String × Json}
    {members : List (String × Json)}
    (isMember : member ∈ members) :
    member.2.height ≤ membersHeight members := by
  induction members with
  | nil => exact nomatch isMember
  | cons first rest inductionHypothesis =>
    obtain ⟨key, value⟩ := first
    rw [membersHeight]
    rcases List.mem_cons.1 isMember with rfl | inRest
    · exact Nat.le_max_left _ _
    · exact Nat.le_trans (inductionHypothesis inRest) (Nat.le_max_right _ _)

/-- A field that is present has fewer brackets than the object of all fields. -/
theorem height_lt_ofFields
    {name : String}
    {value : Json}
    {fields : List (String × Option Json)}
    (isField : (name, some value) ∈ fields) :
    value.height < (ofFields fields).height := by
  have isMember : (name, value) ∈ fields.filterMap fun field => field.2.map (field.1, ·) :=
    List.mem_filterMap.2 ⟨_, isField, rfl⟩
  exact Nat.lt_succ_of_le (height_le_membersHeight isMember)

end Json

/-! ## Dictionaries -/

namespace Dictionary

variable {α : Type}

/-- An entry behind all others is put at the end. -/
theorem insertEntry_of_last
    {key : String}
    {value : α}
    {entries : List (String × α)}
    (isLast : ∀ entry ∈ entries, entry.1 < key) :
    insertEntry key value entries = entries ++ [(key, value)] := by
  induction entries with
  | nil => rfl
  | cons entry rest inductionHypothesis =>
    obtain ⟨before, restBefore⟩ := List.forall_mem_cons.1 isLast
    rw [insertEntry, if_neg (String.lt_asymm before), if_neg (String.ne_of_lt before).symm,
      inductionHypothesis restBefore, List.cons_append]

theorem eq_of_entries
    {left right : Dictionary α}
    (same : left.entries = right.entries) :
    left = right := by
  cases left
  cases right
  cases same
  rfl

/-- Entries that are behind those of a dictionary are put at its end one by one. -/
theorem entries_foldl_insert
    (entries : List (String × α))
    (known : Dictionary α)
    (sorted : (known.entries ++ entries).Pairwise fun earlier later => earlier.1 < later.1) :
    (entries.foldl (fun dictionary entry => dictionary.insert entry.1 entry.2) known).entries =
      known.entries ++ entries := by
  induction entries generalizing known with
  | nil => exact (List.append_nil _).symm
  | cons entry rest inductionHypothesis =>
    have inserted : (known.insert entry.1 entry.2).entries = known.entries ++ [entry] :=
      insertEntry_of_last fun earlier member =>
        (List.pairwise_append.1 sorted).2.2 earlier member entry List.mem_cons_self
    rw [List.append_cons, ← inserted] at sorted ⊢
    exact inductionHypothesis _ sorted

/-- A dictionary is that of its own entries. -/
theorem ofList_entries (dictionary : Dictionary α) : ofList dictionary.entries = dictionary :=
  eq_of_entries (entries_foldl_insert dictionary.entries ∅ dictionary.sorted)

end Dictionary

/-! ## Records -/

namespace Json

/-- The members of an object of those fields that are present. -/
def presentMembers (fields : List (String × Option Json)) : List (String × Json) :=
  fields.filterMap fun field => field.2.map (field.1, ·)

/-- A value that may be absent by being null. -/
def orNone : Json → Option Json
  | .null => none
  | value => some value

theorem getD_orNone (value : Json) : value.orNone.getD .null = value := by
  cases value <;> rfl

end Json

namespace Decoder

variable {α σ : Type}

/-- What is written in a field that may be absent is read as a result that may be. -/
def Reads (decoder : Decoder α) : Option Json → Option α → Prop
  | none, result => result = none
  | some value, result => decoder.optional.decode value = .ok result

theorem reads_none {decoder : Decoder α} : decoder.Reads none none :=
  rfl

theorem reads_some
    {decoder : Decoder α}
    {value : Json}
    {result : α}
    (notNull : value ≠ .null)
    (decoded : decoder.decode value = .ok result) :
    decoder.Reads (some value) (some result) := by
  have same : decoder.optional.decode value = (decoder.decode value).map some := by
    cases value <;> first | rfl | exact absurd rfl notNull
  exact same.trans (by rw [decoded]; rfl)

theorem reads_string (text : Option String) :
    Decoder.string.Reads (text.map .string) text := by
  cases text <;> rfl

theorem reads_value
    (depth : Nat)
    (value : Option Json) :
    (Decoder.value depth).Reads value (value.bind Json.orNone) := by
  cases value with
  | none => rfl
  | some value => cases value <;> rfl

/-- A member of a record that is a field is decoded, unless it is absent. -/
theorem foldlM_presentMembers
    {fields : List (Field σ)}
    {name : String}
    {decoder : Decoder α}
    {put : Option α → σ → σ}
    (found : Field.find? fields name = some (.optional name decoder.optional put))
    {written : Option Json}
    {result : Option α}
    (reads : decoder.Reads written result)
    {known : σ}
    (unchanged : put none known = known)
    (rest : List (String × Option Json)) :
    (Json.presentMembers ((name, written) :: rest)).foldlM (decodeMember fields) known =
      (Json.presentMembers rest).foldlM (decodeMember fields) (put result known) := by
  cases written with
  | none =>
    obtain rfl : result = none := reads
    rw [unchanged]
    rfl
  | some value =>
    have decoded : decodeMember fields known (name, value) = .ok (put result known) := by
      have read : decoder.optional.decode value = .ok result := reads
      rw [decodeMember, found]
      change ((decoder.optional.decode value).map put).map (· known) = _
      rw [read]
      rfl
    change (decodeMember fields known (name, value) >>= _) = _
    rw [decoded]
    rfl

/-- A record none of whose fields must be present is what its members give. -/
theorem decode_record
    {title : String}
    {initial known : σ}
    {fields : List (Field σ)}
    {written : List (String × Option Json)}
    (noneRequired : fields.any (·.isRequired) = false)
    (folded : (Json.presentMembers written).foldlM (decodeMember fields) initial = .ok known) :
    (record title initial (some fun _ => fields)).decode (.ofFields written) = .ok known := by
  have isComplete : ∀ seen, complete fields seen known = .ok known := by
    intro seen
    have noneMissing : fields.find? (fun field => field.isRequired && !seen.contains field.name) =
        none := by
      refine List.find?_eq_none.2 fun field member missing => ?_
      have isRequired := (Bool.and_eq_true _ _ ▸ missing).1
      exact Bool.false_ne_true (noneRequired ▸ List.any_eq_true.2 ⟨field, member, isRequired⟩)
    rw [complete, noneMissing]
  change ((Json.presentMembers written).foldlM (decodeMember fields) initial >>= _) = _
  rw [folded]
  exact isComplete _

end Decoder

/-! ## Events -/

namespace Event

theorem decode_toJson
    {event : Event}
    {depth : Nat}
    (enough : event.toJson.height ≤ depth) :
    (decoder depth).decode event.toJson = .ok event := by
  cases depth with
  | zero => exact absurd enough (Nat.not_succ_le_zero _)
  | succ depth =>
    obtain ⟨type, params⟩ := event
    have known : (decoder (depth + 1)).decode (toJson ⟨type, params⟩) =
        .ok ⟨type, .ofList params.entries⟩ := rfl
    rw [known, Dictionary.ofList_entries]

theorem reads_toJson
    {event : Option Event}
    {depth : Nat}
    (enough : ∀ value, event.map toJson = some value → value.height ≤ depth) :
    (decoder depth).Reads (event.map toJson) event := by
  cases event with
  | none => rfl
  | some event => exact Decoder.reads_some nofun (decode_toJson (enough _ rfl))

end Event

/-! ## Conditions -/

namespace ConditionSpec

variable {depth : Nat}

/-- The fields of a specification as they are written. -/
def writtenFields (spec : ConditionSpec) : List (String × Option Json) :=
  [("name", spec.name.map .string),
    ("all", specsToJson? spec.all),
    ("any", specsToJson? spec.any),
    ("not", specToJson? spec.not),
    ("condition", spec.condition.map .string),
    ("fact", spec.fact.map .string),
    ("path", spec.path.map .string),
    ("operator", spec.operator.map .string),
    ("value", spec.value),
    ("event", spec.event.map Event.toJson)]

theorem toJson_eq_ofFields (spec : ConditionSpec) : spec.toJson = .ofFields spec.writtenFields := by
  obtain ⟨name, all, any, not, condition, fact, path, operator, value, event⟩ := spec
  rfl

theorem specsToJson_eq_map (specs : List ConditionSpec) : specsToJson specs = specs.map toJson := by
  induction specs with
  | nil => rfl
  | cons spec rest inductionHypothesis => rw [specsToJson, inductionHypothesis, List.map_cons]

/-- A written specification has a bracket around its fields. -/
theorem exists_inside
    {spec : ConditionSpec}
    (enough : spec.toJson.height ≤ depth) :
    ∃ inner, depth = inner + 1 := by
  rw [toJson_eq_ofFields] at enough
  exact Nat.exists_eq_add_of_le' (Nat.le_trans (Nat.le_add_left 1 _) enough)

theorem height_le_of_field
    {spec : ConditionSpec}
    {name : String}
    {value : Json}
    (enough : spec.toJson.height ≤ depth + 1)
    (isField : (name, some value) ∈ spec.writtenFields) :
    value.height ≤ depth := by
  rw [toJson_eq_ofFields] at enough
  exact Nat.le_of_lt_succ (Nat.lt_of_lt_of_le (Json.height_lt_ofFields isField) enough)

/-- A written specification is read as it was, given what is read of the specifications
inside it, but with no value where that is null. -/
theorem decode_toJson
    {spec : ConditionSpec}
    {all any : Option (List ConditionSpec)}
    {not : Option ConditionSpec}
    (enough : spec.toJson.height ≤ depth + 1)
    (ofAll : (listDecoder depth).Reads (specsToJson? spec.all) all)
    (ofAny : (listDecoder depth).Reads (specsToJson? spec.any) any)
    (ofNot : (decoder depth).Reads (specToJson? spec.not) not) :
    (decoder (depth + 1)).decode spec.toJson =
      .ok { spec with all, any, not, value := spec.value.bind Json.orNone } := by
  have ofEvent : (Event.decoder depth).Reads (spec.event.map Event.toJson) spec.event := by
    refine Event.reads_toJson fun value isEvent => ?_
    have isField : ("event", some value) ∈ spec.writtenFields := by simp [writtenFields, isEvent]
    exact height_le_of_field enough isField
  rw [toJson_eq_ofFields]
  refine Decoder.decode_record rfl ?_
  -- each field is found by its name, and one that is absent leaves the record as it was
  rw [writtenFields,
    Decoder.foldlM_presentMembers rfl (Decoder.reads_string _) rfl,
    Decoder.foldlM_presentMembers rfl ofAll rfl,
    Decoder.foldlM_presentMembers rfl ofAny rfl,
    Decoder.foldlM_presentMembers rfl ofNot rfl,
    Decoder.foldlM_presentMembers rfl (Decoder.reads_string _) rfl,
    Decoder.foldlM_presentMembers rfl (Decoder.reads_string _) rfl,
    Decoder.foldlM_presentMembers rfl (Decoder.reads_string _) rfl,
    Decoder.foldlM_presentMembers rfl (Decoder.reads_string _) rfl,
    Decoder.foldlM_presentMembers rfl (Decoder.reads_value depth _) rfl,
    Decoder.foldlM_presentMembers rfl ofEvent rfl]
  rfl

/-- What is written of a clause is read as a specification of that clause. -/
def IsReadable (clause : Clause) : Prop :=
  ∀ depth, (ofClause clause).toJson.height ≤ depth →
    ∃ spec, (decoder depth).decode (ofClause clause).toJson = .ok spec ∧
      spec.toClause = .ok clause

/-- What is written of readable clauses is read as specifications of those clauses. -/
theorem reads_ofClauses
    {clauses : List Clause}
    (readable : ∀ clause ∈ clauses, IsReadable clause)
    (enough : (Json.array (specsToJson (ofClauses clauses))).height ≤ depth) :
    ∃ specs, (listDecoder depth).Reads (specsToJson? (some (ofClauses clauses))) (some specs) ∧
      specs.mapM toClause = .ok clauses := by
  cases depth with
  | zero => exact absurd enough (Nat.not_succ_le_zero _)
  | succ depth =>
    have items : specsToJson (ofClauses clauses) =
        clauses.map fun clause => (ofClause clause).toJson := by
      rw [specsToJson_eq_map, ofClauses_eq_map, List.map_map]
      rfl
    have inside : ∀ clause ∈ clauses, (ofClause clause).toJson.height ≤ depth := by
      intro clause member
      have isItem : (ofClause clause).toJson ∈ specsToJson (ofClauses clauses) :=
        items ▸ List.mem_map_of_mem member
      exact Nat.le_trans (Json.height_le_itemsHeight isItem) (Nat.le_of_succ_le_succ enough)
    obtain ⟨specs, decoded, made⟩ := exists_mapM fun clause member =>
      readable clause member depth (inside clause member)
    refine ⟨specs, Decoder.reads_some nofun ?_, made⟩
    rw [items]
    exact decoded

/-- What is written of a condition is read as a specification of it, if a clause with
that condition alone is readable. -/
theorem reads_ofCondition
    {condition : Condition}
    (readable : IsReadable (.plain condition))
    (enough : (ofCondition condition).toJson.height ≤ depth) :
    ∃ spec, (decoder depth).Reads (some (ofCondition condition).toJson) (some spec) ∧
      spec.toCondition = .ok condition := by
  rw [← ofClause_plain] at enough ⊢
  obtain ⟨spec, decoded, made⟩ := readable depth enough
  obtain ⟨madeCondition, ofSpec, same⟩ := exists_of_map made
  obtain rfl : madeCondition = condition := congrArg Clause.condition same
  refine ⟨spec, Decoder.reads_some ?_ decoded, ofSpec⟩
  rw [toJson_eq_ofFields]
  exact nofun

namespace IsReadable

variable {name : Option String} {event : Option Event}

/-- A clause is readable if its condition is that of what is read of it. -/
theorem of_reads
    {clause : Clause}
    (reads : ∀ depth, (ofClause clause).toJson.height ≤ depth + 1 →
      ∃ all any not,
        (listDecoder depth).Reads (specsToJson? (ofClause clause).all) all ∧
        (listDecoder depth).Reads (specsToJson? (ofClause clause).any) any ∧
        (decoder depth).Reads (specToJson? (ofClause clause).not) not ∧
        toCondition { ofClause clause with
          all, any, not, value := (ofClause clause).value.bind Json.orNone } =
            .ok clause.condition) :
    IsReadable clause := by
  intro depth enough
  obtain ⟨inner, rfl⟩ := exists_inside enough
  obtain ⟨all, any, not, ofAll, ofAny, ofNot, made⟩ := reads inner enough
  refine ⟨_, decode_toJson enough ofAll ofAny ofNot, ?_⟩
  rw [toClause, made]
  obtain ⟨name, event, condition⟩ := clause
  rfl

theorem all
    {clauses : List Clause}
    (readable : ∀ clause ∈ clauses, IsReadable clause) :
    IsReadable ⟨name, event, .all clauses⟩ := by
  refine of_reads fun depth enough => ?_
  have isField : ("all", some (.array (specsToJson (ofClauses clauses)))) ∈
      (ofClause ⟨name, event, .all clauses⟩).writtenFields := by
    simp [writtenFields, ofClause, ofCondition, specsToJson?]
  obtain ⟨specs, reads, made⟩ := reads_ofClauses readable (height_le_of_field enough isField)
  refine ⟨some specs, none, none, reads, Decoder.reads_none, Decoder.reads_none, ?_⟩
  rw [toCondition_of_shapeCount rfl]
  change (specs.mapM toClause).map Condition.all = _
  rw [made]
  rfl

theorem any
    {clauses : List Clause}
    (readable : ∀ clause ∈ clauses, IsReadable clause) :
    IsReadable ⟨name, event, .any clauses⟩ := by
  refine of_reads fun depth enough => ?_
  have isField : ("any", some (.array (specsToJson (ofClauses clauses)))) ∈
      (ofClause ⟨name, event, .any clauses⟩).writtenFields := by
    simp [writtenFields, ofClause, ofCondition, specsToJson?]
  obtain ⟨specs, reads, made⟩ := reads_ofClauses readable (height_le_of_field enough isField)
  refine ⟨none, some specs, none, Decoder.reads_none, reads, Decoder.reads_none, ?_⟩
  rw [toCondition_of_shapeCount rfl]
  change (specs.mapM toClause).map Condition.any = _
  rw [made]
  rfl

theorem not
    {child : Condition}
    (isNegatable : child.IsNegatable)
    (readable : IsReadable (.plain child)) :
    IsReadable ⟨name, event, .not child⟩ := by
  refine of_reads fun depth enough => ?_
  have isField : ("not", some (ofCondition child).toJson) ∈
      (ofClause ⟨name, event, .not child⟩).writtenFields := by
    simp [writtenFields, ofClause, ofCondition, specToJson?]
  obtain ⟨spec, reads, made⟩ := reads_ofCondition readable (height_le_of_field enough isField)
  refine ⟨none, none, some spec, Decoder.reads_none, Decoder.reads_none, reads, ?_⟩
  rw [toCondition_of_shapeCount rfl]
  exact bind_eq_ok_iff.2 ⟨child, made, Condition.negate_eq_ok_iff.2 ⟨isNegatable, rfl⟩⟩

theorem reference
    {rule : String}
    (named : rule ≠ "") :
    IsReadable ⟨name, event, .reference rule⟩ := by
  refine of_reads fun depth enough =>
    ⟨none, none, none, Decoder.reads_none, Decoder.reads_none, Decoder.reads_none, ?_⟩
  rw [toCondition_of_shapeCount rfl]
  exact toReference_eq_ok_iff.2 ⟨named, rfl⟩

theorem leaf
    {comparison : Leaf}
    (factNamed : comparison.fact ≠ "")
    (operatorNamed : comparison.operator ≠ "") :
    IsReadable ⟨name, event, .leaf comparison⟩ := by
  refine of_reads fun depth enough =>
    ⟨none, none, none, Decoder.reads_none, Decoder.reads_none, Decoder.reads_none, ?_⟩
  rw [toCondition_of_shapeCount rfl]
  change (Leaf.make comparison.fact comparison.operator
    (comparison.value.orNone.getD .null) >>= _) = _
  rw [Leaf.make_eq_ok_iff.2 ⟨⟨factNamed, operatorNamed⟩, rfl⟩, Json.getD_orNone]
  rfl

end IsReadable

/-- Clauses with well-formed conditions are readable. -/
theorem isReadable_of_wellFormed
    {condition : Condition}
    (wellFormed : condition.WellFormed)
    (name : Option String)
    (event : Option Event) :
    IsReadable ⟨name, event, condition⟩ := by
  induction wellFormed generalizing name event with
  | all _ inductionHypothesis =>
    refine .all ?_
    rintro ⟨name, event, condition⟩ member
    exact inductionHypothesis _ member name event
  | any _ inductionHypothesis =>
    refine .any ?_
    rintro ⟨name, event, condition⟩ member
    exact inductionHypothesis _ member name event
  | not isNegatable _ inductionHypothesis => exact .not isNegatable (inductionHypothesis none none)
  | reference named => exact .reference named
  | leaf factNamed operatorNamed => exact .leaf factNamed operatorNamed

end ConditionSpec

namespace Clause

variable {clause : Clause}

/-- What is written of a clause with a well-formed condition is read as that clause. -/
theorem ofJson_toJson
    (wellFormed : clause.condition.WellFormed) :
    Decoder.ofJson Clause.decoder clause.toJson = .ok clause := by
  have readable : ConditionSpec.IsReadable clause := by
    obtain ⟨name, event, condition⟩ := clause
    exact ConditionSpec.isReadable_of_wellFormed wellFormed name event
  obtain ⟨spec, decoded, made⟩ := readable _ (Nat.le_refl _)
  exact bind_eq_ok_iff.2 ⟨spec, decoded, mapError_eq_ok_iff.2 made⟩

/-- A clause that was read has a well-formed condition. -/
theorem wellFormed_of_ofJson
    {value : Json}
    (read : Decoder.ofJson Clause.decoder value = .ok clause) :
    clause.condition.WellFormed := by
  obtain ⟨spec, _, converted⟩ := bind_eq_ok_iff.1 read
  obtain ⟨condition, made, rfl⟩ := exists_of_map (mapError_eq_ok_iff.1 converted)
  exact ConditionSpec.wellFormed_of_toCondition made

end Clause

/-! ## Rules -/

namespace Rule

/-- The fields of a definition as they are written of a rule. -/
def writtenFields (rule : Rule) : List (String × Option Json) :=
  [("name", some (.string rule.name)),
    ("conditions", some rule.condition.toJson),
    ("event", some rule.event.toJson),
    ("failureEvent", some rule.failureEvent.toJson)]

theorem toJson_eq_ofFields (rule : Rule) : rule.toJson = .ofFields rule.writtenFields :=
  rfl

theorem height_le_of_field
    {rule : Rule}
    {depth : Nat}
    {name : String}
    {value : Json}
    (enough : rule.toJson.height ≤ depth + 1)
    (isField : (name, some value) ∈ rule.writtenFields) :
    value.height ≤ depth :=
  Nat.le_of_lt_succ (Nat.lt_of_lt_of_le (Json.height_lt_ofFields isField) enough)

/-- A written rule is read as a definition of that rule, given what is read of its
condition. -/
theorem decode_toJson
    {rule : Rule}
    {depth : Nat}
    {spec : ConditionSpec}
    (enough : rule.toJson.height ≤ depth + 1)
    (ofConditions : (ConditionSpec.decoder depth).Reads (some rule.condition.toJson) (some spec)) :
    (RuleDefinition.decoder (depth + 1)).decode rule.toJson =
      .ok {
        name := some rule.name
        event := some rule.event
        failureEvent := some rule.failureEvent
        conditions := some spec } := by
  have ofName : Decoder.string.Reads (some (.string rule.name)) (some rule.name) := rfl
  have ofEvent : ∀ name event, (name, some event.toJson) ∈ rule.writtenFields →
      (Event.decoder depth).Reads (some event.toJson) (some event) := by
    intro name event isField
    exact Decoder.reads_some nofun (Event.decode_toJson (height_le_of_field enough isField))
  have ofSuccess := ofEvent "event" rule.event (by simp [writtenFields])
  have ofFailure := ofEvent "failureEvent" rule.failureEvent (by simp [writtenFields])
  rw [toJson_eq_ofFields]
  refine Decoder.decode_record rfl ?_
  rw [writtenFields,
    Decoder.foldlM_presentMembers rfl ofName rfl,
    Decoder.foldlM_presentMembers rfl ofConditions rfl,
    Decoder.foldlM_presentMembers rfl ofSuccess rfl,
    Decoder.foldlM_presentMembers rfl ofFailure rfl]
  rfl

/-- What is written of a well-formed rule is read as that rule. -/
theorem ofJson_toJson
    {rule : Rule}
    (wellFormed : rule.WellFormed) :
    ofJson rule.toJson = .ok rule := by
  obtain ⟨depth, sameHeight⟩ : ∃ depth, rule.toJson.height = depth + 1 := ⟨_, rfl⟩
  have isField : ("conditions", some rule.condition.toJson) ∈ rule.writtenFields := by
    simp [writtenFields]
  obtain ⟨spec, reads, made⟩ := ConditionSpec.reads_ofCondition
    (ConditionSpec.isReadable_of_wellFormed wellFormed.condition none none)
    (height_le_of_field (Nat.le_of_eq sameHeight) isField)
  have decoded := decode_toJson (Nat.le_of_eq sameHeight) reads
  rw [← sameHeight] at decoded
  refine bind_eq_ok_iff.2 ⟨_, mapError_eq_ok_iff.2 decoded, RuleDefinition.toRule_eq_ok_iff.2 ?_⟩
  exact {
    name := rfl
    condition := (RuleDefinition.toCondition_eq_ok_iff_of_conditions rfl).2 ⟨rfl, made⟩
    event := rfl
    failureEvent := rfl
    named := wellFormed.named
    typed := wellFormed.typed }

end Rule

/-- What is written can be read again and is the same. This holds of every rule that is made
from a definition, of every clause that is read from any value, and of the failed clauses
that an execution of such a rule reports. -/
theorem Rule.written_is_read :
    (∀ (definition : RuleDefinition) (rule : Rule), definition.toRule = .ok rule →
      Rule.ofJson rule.toJson = .ok rule) ∧
    (∀ (value : Json) (clause : Clause), Decoder.ofJson Clause.decoder value = .ok clause →
      Decoder.ofJson Clause.decoder clause.toJson = .ok clause) ∧
    (∀ (definition : RuleDefinition) (rule : Rule) (executor : Executor) (evaluation : Evaluation),
      definition.toRule = .ok rule → executor.execute rule = .ok evaluation →
      ∀ clause ∈ evaluation.failedConditions,
        Decoder.ofJson Clause.decoder clause.toJson = .ok clause) := by
  refine ⟨?rules, ?clauses, ?failures⟩
  case rules =>
    intro definition rule made
    exact ofJson_toJson (RuleDefinition.wellFormed_of_toRule made)
  case clauses =>
    intro value clause read
    exact Clause.ofJson_toJson (Clause.wellFormed_of_ofJson read)
  case failures =>
    intro definition rule executor evaluation made executed clause failed
    rw [Executor.execute_eq_visit] at executed
    obtain ⟨visit, visited, rfl⟩ := exists_of_map executed
    have wellFormed := (RuleDefinition.wellFormed_of_toRule made).condition
    rw [Executor.visit_of_room (Executor.room_of_visitFrom visited).2] at visited
    have within : Condition.Within clause.condition rule.condition :=
      Condition.within_of_mem_failures visited failed
    exact Clause.ofJson_toJson (wellFormed.of_within within)

end Verdict
