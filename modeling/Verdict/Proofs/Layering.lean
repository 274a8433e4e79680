import Mathlib.Data.List.Induction
import Verdict.Settings

/-!
# Layers of settings

Layers are merged into one tree of settings, setting by setting. This module says what the tree
has at a place: what the highest layer gives it that gives it anything, so no layer takes away
what it does not set itself.

It is shown of the kind of a tree, which is all that a conversion to a setting sees. The kind of
what is merged is that of the later tree, so a setting either leaves the kind at a place as it
is or decides it whatever was there before. For a place inside a section this needs that
the section stays a table.
-/

namespace Verdict

namespace SettingTree

variable {α : Type} {tree value : SettingTree} {key name : String}

/-! ## Kinds of trees -/

/-- What a conversion to a setting sees of a tree: that it is absent, its scalar, or that it has
parts. -/
inductive Kind where
  | absent
  | scalar (value : Scalar)
  | compound

/-- The kind of a tree. -/
def kind : SettingTree → Kind
  | .absent => .absent
  | .scalar value => .scalar value
  | .list _ => .compound
  | .table _ => .compound

@[simp] theorem kind_list (items : List SettingTree) : (list items).kind = .compound := rfl

@[simp] theorem kind_table (entries : List (String × SettingTree)) :
    (table entries).kind = .compound := rfl

@[simp] theorem kind_put (tree : SettingTree) (key : String) (value : SettingTree) :
    (tree.put key value).kind = .compound := rfl

@[simp] theorem get?_table (entries : List (String × SettingTree)) (key : String) :
    (table entries).get? key = entries.lookup key := rfl

/-- A conversion goes by the kind of a tree alone. -/
def GoesByKind (convert : SettingTree → Option α) : Prop :=
  ∀ left right : SettingTree, left.kind = right.kind → convert left = convert right

theorem goesByKind_toText? : GoesByKind toText? := by
  intro left right same
  cases left <;> cases right <;> simp_all [kind, toText?]

theorem goesByKind_toOptionalText? : GoesByKind toOptionalText? := by
  intro left right same
  cases left <;> cases right <;> simp_all [kind, toOptionalText?, toText?]

theorem goesByKind_toBoolean? : GoesByKind toBoolean? := by
  intro left right same
  cases left <;> cases right <;> simp_all [kind, toBoolean?]

theorem goesByKind_toNatural? : GoesByKind toNatural? := by
  intro left right same
  cases left <;> cases right <;> simp_all [kind, toNatural?]

/-! ## What merging leaves -/

/-- Entries merged into a table leave a table. -/
theorem exists_mergeEntries_eq_table (entries later : List (String × SettingTree)) :
    ∃ merged, mergeEntries (.table entries) later = .table merged := by
  induction later generalizing entries with
  | nil => exact ⟨entries, rfl⟩
  | cons entry rest inductionHypothesis =>
    rw [mergeEntries]
    exact inductionHypothesis _

/-- What a merged tree is to a conversion is decided by the later tree. -/
theorem kind_merge (earlier later : SettingTree) :
    (merge earlier later).kind = (merge .absent later).kind := by
  cases later with
  | absent => simp [merge]
  | scalar value => simp [merge]
  | list items => simp [merge]
  | table entries =>
    obtain ⟨merged, isTable⟩ := exists_mergeEntries_eq_table earlier.entries entries
    obtain ⟨alone, isAlone⟩ := exists_mergeEntries_eq_table absent.entries entries
    rw [merge, merge, isTable, isAlone, kind_table, kind_table]

/-- The same holds at the end of steps through a tree. -/
theorem kind_alter (tree value : SettingTree) (steps : List SettingStep) :
    (alter (merge · value) steps tree).kind = (alter (merge · value) steps .absent).kind := by
  cases steps with
  | nil => simpa [alter] using kind_merge tree value
  | cons step rest => cases step <;> simp [alter]

/-! ## Places of settings -/

/-- The part of a tree to which keys lead. -/
def part? : List String → SettingTree → Option SettingTree
  | [], tree => some tree
  | key :: keys, tree => (tree.get? key).bind (part? keys)

/-- The kind of the part to which keys lead. -/
def kindAt? (place : List String) (tree : SettingTree) : Option Kind :=
  (tree.part? place).map kind

@[simp] theorem kindAt?_key (tree : SettingTree) :
    kindAt? [key] tree = (tree.get? key).map kind := by
  cases found : tree.get? key <;> simp [kindAt?, part?, found]

theorem kindAt?_section (tree : SettingTree) :
    kindAt? [name, key] tree = (tree.get? name).bind (kindAt? [key]) := by
  cases found : tree.get? name <;> simp [kindAt?, part?, found]

/-- A key that is put has the kind of what is put, and all others have what they had. -/
theorem kindAt?_put {alone : SettingTree} (tree : SettingTree) (same : value.kind = alone.kind) :
    kindAt? [key] (tree.put name value) =
      (kindAt? [key] ((table []).put name alone)).or (kindAt? [key] tree) := by
  by_cases isName : key = name
  · subst isName
    simp [same]
  · simp [get?_put_of_ne _ _ isName]

/-- Entries that are merged have their kinds at a key, and other keys have what they had. -/
theorem kindAt?_mergeEntries (tree : SettingTree) (later : List (String × SettingTree)) :
    kindAt? [key] (mergeEntries tree later) =
      (kindAt? [key] (mergeEntries (.table []) later)).or (kindAt? [key] tree) := by
  induction later generalizing tree with
  | nil => simp [mergeEntries]
  | cons entry rest inductionHypothesis =>
    obtain ⟨name, value⟩ := entry
    rw [mergeEntries, mergeEntries, inductionHypothesis, inductionHypothesis (put _ _ _),
      Option.or_assoc]
    congr 1
    apply kindAt?_put
    rw [kind_merge, kind_merge (get _ _)]

/-! ## Layers over layers -/

variable {layer : Layer} {layers : List Layer} {keys : List String}

/-- What a layer sets, taken alone. -/
def ofLayer (layer : Layer) : SettingTree :=
  apply (.table []) layer

@[simp] theorem kindAt?_nothing : kindAt? (key :: keys) (.table []) = none := rfl

/-- Each setting of a layer leaves what a place has, or replaces it by what the setting alone
gives. -/
def Covers (layer : Layer) (place : List String) : Prop :=
  ∀ setting ∈ layer, ∀ tree : SettingTree,
    kindAt? place (tree.mergeAt setting.1 setting.2) =
      (kindAt? place (mergeAt (.table []) setting.1 setting.2)).or (kindAt? place tree)

/-- A layer that covers a place decides its kind wherever it sets anything there, and leaves it as
it is otherwise. -/
theorem kindAt?_apply
    (covers : Covers layer (key :: keys))
    (tree : SettingTree) :
    kindAt? (key :: keys) (tree.apply layer) =
      (kindAt? (key :: keys) (ofLayer layer)).or (kindAt? (key :: keys) tree) := by
  induction layer generalizing tree with
  | nil => simp [apply, ofLayer]
  | cons setting rest inductionHypothesis =>
    obtain ⟨coversFirst, coversRest⟩ := List.forall_mem_cons.1 covers
    have ofRest := inductionHypothesis coversRest
    have applied : ∀ start : SettingTree,
        start.apply (setting :: rest) = (start.mergeAt setting.1 setting.2).apply rest :=
      fun _ => rfl
    rw [ofLayer, applied, applied, ofRest, ofRest (mergeAt _ _ _), coversFirst, Option.or_assoc]

/-! ## Sections -/

/-- Nothing in a layer replaces a section by something else than a table: the section is merged
as a table, or a part of it is set by its key. -/
def KeepsSection (name : String) (layer : Layer) : Prop :=
  ∀ setting ∈ layer, setting.1.first = name →
    (setting.1.others = [] ∧ ∃ entries, setting.2 = .table entries) ∨
      ∃ key others, setting.1.others = .key key :: others

instance (tree : SettingTree) : Decidable (∃ entries, tree = .table entries) :=
  match tree with
  | .table entries => isTrue ⟨entries, rfl⟩
  | .absent => isFalse nofun
  | .scalar _ => isFalse nofun
  | .list _ => isFalse nofun

instance (steps : List SettingStep) : Decidable (∃ key others, steps = .key key :: others) :=
  match steps with
  | .key key :: others => isTrue ⟨key, others, rfl⟩
  | .position _ :: _ => isFalse nofun
  | [] => isFalse nofun

instance : Decidable (KeepsSection name layer) :=
  inferInstanceAs (Decidable (∀ setting ∈ layer, _))

/-- Every layer covers the keys at the top. -/
theorem covers_key (layer : Layer) (key : String) : Covers layer [key] := by
  intro setting _ tree
  apply kindAt?_put
  rw [kind_alter, kind_alter (get _ _)]

/-- A layer covers the keys of a section that it keeps. One that makes a scalar of the section takes
away what lower layers set in it. -/
theorem covers_section
    (keeps : KeepsSection name layer)
    (key : String) :
    Covers layer [name, key] := by
  rintro ⟨⟨first, others⟩, value⟩ member tree
  have kept := keeps _ member
  simp only [kindAt?_section, mergeAt]
  by_cases isSection : name = first
  case neg => simp [get?_put_of_ne _ _ isSection]
  subst isSection
  have before : (tree.get? name).bind (kindAt? [key]) =
      kindAt? [key] (table (tree.get name).entries) := by
    unfold get
    cases tree.get? name <;> rfl
  rw [get?_put_self, get?_put_self, Option.bind_some, Option.bind_some, before]
  obtain ⟨rfl, entries, rfl⟩ | ⟨inner, others, rfl⟩ := kept rfl
  · simp only [alter, merge]
    exact kindAt?_mergeEntries _ entries
  · apply kindAt?_put
    rw [kind_alter, kind_alter (get _ _)]

/-- A section is missing from a tree or is a table there. -/
def HasSection (name : String) (tree : SettingTree) : Prop :=
  ∀ part, tree.get? name = some part → ∃ entries, part = .table entries

theorem hasSection_of_missing (missing : tree.get? name = none) : HasSection name tree := by
  intro part found
  rw [missing] at found
  exact nomatch found

/-- A setting that keeps a section leaves it a table, if it was one or missing. -/
theorem HasSection.mergeAt
    {setting : SettingPath × SettingTree}
    (has : HasSection name tree)
    (keeps : KeepsSection name [setting]) :
    HasSection name (tree.mergeAt setting.1 setting.2) := by
  obtain ⟨⟨first, others⟩, value⟩ := setting
  intro part found
  rw [SettingTree.mergeAt] at found
  by_cases isSection : name = first
  case neg =>
    rw [get?_put_of_ne _ _ isSection] at found
    exact has part found
  subst isSection
  rw [get?_put_self, Option.some.injEq] at found
  obtain ⟨rfl, entries, rfl⟩ | ⟨inner, others, rfl⟩ := keeps _ List.mem_cons_self rfl
  · subst found
    simp only [alter, merge]
    exact exists_mergeEntries_eq_table _ entries
  · exact ⟨_, found.symm⟩

theorem HasSection.apply
    (has : HasSection name tree)
    (keeps : KeepsSection name layer) :
    HasSection name (tree.apply layer) := by
  induction layer generalizing tree with
  | nil => exact has
  | cons setting rest inductionHypothesis =>
    obtain ⟨keepsFirst, keepsRest⟩ := List.forall_mem_cons.1 keeps
    exact inductionHypothesis (has.mergeAt (List.forall_mem_singleton.2 keepsFirst)) keepsRest

theorem HasSection.foldl_apply
    (has : HasSection name tree)
    (keeps : ∀ layer ∈ layers, KeepsSection name layer) :
    HasSection name (layers.foldl SettingTree.apply tree) := by
  induction layers generalizing tree with
  | nil => exact has
  | cons layer rest inductionHypothesis =>
    obtain ⟨keepsFirst, keepsRest⟩ := List.forall_mem_cons.1 keeps
    exact inductionHypothesis (has.apply keepsFirst) keepsRest

/-! ## Values of settings -/

/-- A setting has a value: the highest layer that sets its place decides it, and where no layer
does, it has its default. -/
inductive IsSetBy (layers : List Layer) (place : List String)
    (convert : SettingTree → Option α) (default : α) : α → Prop
  | layer {lower higher : List Layer} {layer : Layer} {part : SettingTree} {value : α} :
    layers = lower ++ layer :: higher →
      (ofLayer layer).part? place = some part →
      (∀ other ∈ higher, (ofLayer other).part? place = none) →
      convert part = some value →
      IsSetBy layers place convert default value
  | default : (∀ layer ∈ layers, (ofLayer layer).part? place = none) →
      IsSetBy layers place convert default default

section

variable {convert : SettingTree → Option α} {default fallback found : α} {place : List String}

/-- A highest layer that sets a place decides its value, even if its part does not convert. -/
theorem isSetBy_concat_of_some
    {part : SettingTree}
    (sets : (ofLayer layer).part? place = some part) :
    IsSetBy (layers ++ [layer]) place convert default found ↔ convert part = some found := by
  constructor
  · intro isSet
    cases isSet with
    | @layer lower higher other otherPart _ split isPart unset converted =>
      cases higher using List.reverseRecOn with
      | nil =>
        obtain ⟨rfl, rfl⟩ := List.append_singleton_inj.1 split
        rw [sets, Option.some.injEq] at isPart
        exact isPart ▸ converted
      | append_singleton higher last =>
        rw [← List.cons_append, ← List.append_assoc] at split
        obtain ⟨rfl, rfl⟩ := List.append_singleton_inj.1 split
        rw [unset layer (by simp)] at sets
        exact nomatch sets
    | default unset =>
      rw [unset layer (by simp)] at sets
      exact nomatch sets
  · exact .layer rfl sets nofun

/-- A highest layer that does not set a place leaves its value to the others. -/
theorem isSetBy_concat_of_none
    (unset : (ofLayer layer).part? place = none) :
    IsSetBy (layers ++ [layer]) place convert default found ↔
      IsSetBy layers place convert default found := by
  constructor
  · intro isSet
    cases isSet with
    | @layer lower higher other part _ split isPart othersUnset converted =>
      cases higher using List.reverseRecOn with
      | nil =>
        obtain ⟨rfl, rfl⟩ := List.append_singleton_inj.1 split
        rw [unset] at isPart
        exact nomatch isPart
      | append_singleton higher last =>
        rw [← List.cons_append, ← List.append_assoc] at split
        obtain ⟨rfl, rfl⟩ := List.append_singleton_inj.1 split
        exact .layer rfl isPart (fun other member => othersUnset other (by simp [member])) converted
    | default othersUnset =>
      exact .default fun other member => othersUnset other (by simp [member])
  · intro isSet
    have unsetAll : ∀ {higher : List Layer},
        (∀ other ∈ higher, (ofLayer other).part? place = none) →
          ∀ other ∈ higher ++ [layer], (ofLayer other).part? place = none := by
      intro higher othersUnset other member
      rcases List.mem_append.1 member with inHigher | isLast
      · exact othersUnset other inHigher
      · rw [List.mem_singleton.1 isLast]
        exact unset
    cases isSet with
    | @layer lower higher other part _ split isPart othersUnset converted =>
      have splitAll : layers ++ [layer] = lower ++ other :: (higher ++ [layer]) := by
        rw [split, List.append_assoc, List.cons_append]
      exact .layer splitAll isPart (unsetAll othersUnset) converted
    | default othersUnset => exact .default (unsetAll othersUnset)

/-- The converted part at a place, or a default if there is no such part. -/
def valueAt? (place : List String) (fallback : α) (convert : SettingTree → Option α)
    (tree : SettingTree) : Option α :=
  (tree.part? place).elim (some fallback) convert

/-- A conversion finds the same in trees that have the same kind at a place. -/
theorem valueAt?_congr
    {left right : SettingTree}
    (goes : GoesByKind convert)
    (same : kindAt? place left = kindAt? place right) :
    left.valueAt? place fallback convert = right.valueAt? place fallback convert := by
  unfold kindAt? at same
  unfold valueAt?
  cases inLeft : left.part? place with
  | none =>
    cases inRight : right.part? place with
    | none => rfl
    | some part => simp [inLeft, inRight] at same
  | some part =>
    cases inRight : right.part? place with
    | none => simp [inLeft, inRight] at same
    | some other =>
      apply goes
      simpa [inLeft, inRight] using same

/-- The values of settings can be read off the tree of all layers. -/
theorem isSetBy_iff
    (goes : GoesByKind convert)
    (covers : ∀ layer ∈ layers, Covers layer (key :: keys))
    (start : tree.valueAt? (key :: keys) fallback convert = some default) :
    (layers.foldl apply tree).valueAt? (key :: keys) fallback convert = some found ↔
      IsSetBy layers (key :: keys) convert default found := by
  induction layers using List.reverseRecOn with
  | nil =>
    rw [List.foldl_nil, start]
    constructor
    · intro same
      obtain rfl := Option.some.inj same
      exact .default nofun
    · rintro (_ | _)
      · simp_all
      · rfl
  | append_singleton layers layer inductionHypothesis =>
    obtain ⟨coversLower, coversLast⟩ := List.forall_mem_append.1 covers
    have shown := kindAt?_apply (coversLast layer (List.mem_singleton_self layer))
      (layers.foldl apply tree)
    rw [List.foldl_append, List.foldl_cons, List.foldl_nil]
    cases sets : (ofLayer layer).part? (key :: keys) with
    | none =>
      have same : kindAt? (key :: keys) (apply (layers.foldl apply tree) layer) =
          kindAt? (key :: keys) (layers.foldl apply tree) := by
        simpa [kindAt?, sets] using shown
      rw [isSetBy_concat_of_none sets, valueAt?_congr goes same, inductionHypothesis coversLower]
    | some part =>
      have same : kindAt? (key :: keys) (apply (layers.foldl apply tree) layer) =
          kindAt? (key :: keys) (ofLayer layer) := by
        simpa [kindAt?, sets] using shown
      rw [isSetBy_concat_of_some sets, valueAt?_congr goes same, valueAt?, sets, Option.elim_some]

end

end SettingTree

end Verdict
