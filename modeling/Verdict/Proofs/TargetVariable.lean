import Verdict.Proofs.LayeredSettings
import Verdict.Proofs.WrittenForm

/-!
# The variable for the target rule

The name of the target rule can be given by a variable. Its text is read as a scalar before it
is wanted as a text again, so what arrives is the standard form of that scalar: the name `007`
arrives as `7`. Names that write neither a boolean nor a number arrive as they are.

Whatever the documents and the other variables say, the variable decides the target, unless a
later one sets it again.
-/

namespace Verdict

namespace SettingTree

variable {name key : String} {scalar other : Scalar} {tree left right : SettingTree}
  {path : SettingPath} {layer : Layer}

@[simp] theorem get_put_self (tree : SettingTree) (key : String) (value : SettingTree) :
    (tree.put key value).get key = value := by
  rw [get, get?_put_self, Option.getD_some]

theorem get_congr (same : left.get? key = right.get? key) : left.get key = right.get key := by
  rw [get, get, same]

/-- A tree has a scalar at a key of a section, and everywhere else what another tree has. -/
structure Sets (name key : String) (scalar : Scalar) (tree left : SettingTree) : Prop where
  found : ∃ entries, left.get? name = some (.table entries) ∧
    (table entries).get? key = some (.scalar scalar)
  inside : ∀ sibling, sibling ≠ key → (left.get name).get? sibling = (tree.get name).get? sibling
  outside : ∀ first, first ≠ name → left.get? first = tree.get? first

/-- A path leads elsewhere than to a certain key of a section or to the section as a whole. -/
def Leaves (name key : String) (path : SettingPath) : Prop :=
  path.first = name → ∃ sibling others, sibling ≠ key ∧ path.others = .key sibling :: others

/-- A scalar merged at a key of a section is found there, and nothing else is changed. -/
theorem sets_mergeAt (name key : String) (scalar : Scalar) (tree : SettingTree) :
    Sets name key scalar tree (tree.mergeAt ⟨name, [.key key]⟩ (.scalar scalar)) := by
  simp only [mergeAt, alter, merge]
  constructor
  case found => exact ⟨_, get?_put_self _ _ _, get?_put_self _ _ _⟩
  case inside =>
    intro sibling different
    rw [get_put_self, get?_put_of_ne _ _ different]
  case outside => exact fun first different => get?_put_of_ne _ _ different

/-- A later setting of something else leaves the scalar at its key. -/
theorem Sets.mergeAt
    (sets : Sets name key scalar tree left)
    (leaves : Leaves name key path)
    (value : SettingTree) :
    Sets name key scalar (tree.mergeAt path value) (left.mergeAt path value) := by
  obtain ⟨first, others⟩ := path
  obtain ⟨entries, isTable, isScalar⟩ := sets.found
  simp only [SettingTree.mergeAt]
  by_cases isSection : first = name
  case neg =>
    have aside : ∀ (start value : SettingTree),
        (start.put first value).get? name = start.get? name :=
      fun start value => get?_put_of_ne start value (Ne.symm isSection)
    have same : left.get first = tree.get first := get_congr (sets.outside first isSection)
    constructor
    case found => exact ⟨entries, (aside _ _).trans isTable, isScalar⟩
    case inside =>
      rw [get_congr (aside _ _), get_congr (aside _ _)]
      exact sets.inside
    case outside =>
      intro other different
      by_cases isFirst : other = first
      · rw [isFirst, get?_put_self, get?_put_self, same]
      · rw [get?_put_of_ne _ _ isFirst, get?_put_of_ne _ _ isFirst]
        exact sets.outside other different
  subst isSection
  obtain ⟨sibling, others, different, rfl⟩ := leaves rfl
  have same : (left.get first).get sibling = (tree.get first).get sibling :=
    get_congr (sets.inside sibling different)
  simp only [alter, same]
  constructor
  case found =>
    refine ⟨_, get?_put_self _ _ _, ?_⟩
    have inSection : (left.get first).get? key = some (.scalar scalar) := by
      rw [get, isTable]
      exact isScalar
    exact (get?_put_of_ne _ _ (Ne.symm different)).trans inSection
  case inside =>
    intro other otherDifferent
    rw [get_put_self, get_put_self]
    by_cases isSibling : other = sibling
    · rw [isSibling, get?_put_self, get?_put_self]
    · rw [get?_put_of_ne _ _ isSibling, get?_put_of_ne _ _ isSibling]
      exact sets.inside other otherDifferent
  case outside =>
    intro other otherDifferent
    rw [get?_put_of_ne _ _ otherDifferent, get?_put_of_ne _ _ otherDifferent]
    exact sets.outside other otherDifferent

theorem Sets.apply
    (sets : Sets name key scalar tree left)
    (leaves : ∀ setting ∈ layer, Leaves name key setting.1) :
    Sets name key scalar (tree.apply layer) (left.apply layer) := by
  induction layer generalizing tree left with
  | nil => exact sets
  | cons setting rest inductionHypothesis =>
    obtain ⟨leavesFirst, leavesRest⟩ := List.forall_mem_cons.1 leaves
    exact inductionHypothesis (sets.mergeAt leavesFirst setting.2) leavesRest

/-- Two scalars at the same place make no difference elsewhere. -/
theorem Sets.over
    (sets : Sets name key scalar tree left)
    (setsOther : Sets name key other tree right) :
    Sets name key scalar right left where
  found := sets.found
  inside sibling different :=
    (sets.inside sibling different).trans (setsOther.inside sibling different).symm
  outside first different :=
    (sets.outside first different).trans (setsOther.outside first different).symm

theorem Sets.hasSection (sets : Sets name key scalar tree left) : HasSection name left := by
  obtain ⟨entries, isTable, _⟩ := sets.found
  intro part found
  rw [isTable, Option.some.injEq] at found
  exact ⟨entries, found.symm⟩

section

variable {α : Type} {default : α} {convert : SettingTree → Option α} {sibling : String}

theorem field_congr (same : left.get? key = right.get? key) :
    left.field key default convert = right.field key default convert := by
  rw [field, field, same]

theorem Sets.field_eq
    (sets : Sets name key scalar tree left)
    (different : sibling ≠ name) :
    left.field sibling default convert = tree.field sibling default convert :=
  field_congr (sets.outside sibling different)

theorem Sets.valueAt?_eq
    (sets : Sets name key scalar tree left)
    (different : sibling ≠ key) :
    left.valueAt? [name, sibling] default convert =
      (tree.get name).field sibling default convert := by
  obtain ⟨entries, isTable, _⟩ := sets.found
  have isSection : left.get name = .table entries := by rw [get, isTable, Option.getD_some]
  rw [valueAt?_of_table isTable, ← isSection]
  exact field_congr (sets.inside sibling different)

/-- The value at the key is what its scalar converts to. -/
theorem Sets.valueAt?_key (sets : Sets name key scalar tree left) :
    left.valueAt? [name, key] default convert = convert (.scalar scalar) := by
  obtain ⟨entries, isTable, isScalar⟩ := sets.found
  rw [valueAt?_of_table isTable, field, isScalar]

end

end SettingTree

open SettingTree

/-- The settings of an engine can be read off its section one by one, if it is well formed. -/
theorem EngineSettings.exists_fields
    {tree : SettingTree}
    {settings : EngineSettings}
    (valid : tree.field "engine" {} EngineSettings.ofTree? = some settings) :
    ∃ others : EngineSettings,
      (tree.get "engine").field "rules_path" "rules" toText? = some others.rulesPath ∧
      (tree.get "engine").field "facts_path" none toOptionalText? = some others.factsPath ∧
      (tree.get "engine").field "include_interpretation" true toBoolean? =
        some others.includeInterpretation ∧
      (tree.get "engine").field "include_failed_conditions" true toBoolean? =
        some others.includeFailedConditions ∧
      (tree.get "engine").field "include_facts" true toBoolean? = some others.includeFacts ∧
      (tree.get "engine").field "max_depth" 32 toNatural? = some others.maxDepth := by
  cases found : tree.get? "engine" with
  | none =>
    rw [SettingTree.get, found]
    exact ⟨{}, rfl, rfl, rfl, rfl, rfl, rfl⟩
  | some part =>
    rw [SettingTree.get, found, Option.getD_some]
    rw [field_of_found found] at valid
    cases part with
    | absent => simp [EngineSettings.ofTree?, toSection?] at valid
    | scalar value => simp [EngineSettings.ofTree?, toSection?] at valid
    | list items => exact ⟨{}, rfl, rfl, rfl, rfl, rfl, rfl⟩
    | table entries =>
      simp only [EngineSettings.ofTree?, toSection?, Option.bind_eq_bind, Option.bind_some,
        Option.bind_eq_some_iff, Option.pure_def, Option.some.injEq] at valid
      obtain ⟨rulesPath, ofRules, factsPath, ofFacts, targetRule, _, interpretation,
        ofInterpretation, failed, ofFailed, facts, ofIncluded, depth, ofDepth, _⟩ := valid
      exact ⟨⟨rulesPath, factsPath, targetRule, interpretation, failed, facts, depth⟩, ofRules,
        ofFacts, ofInterpretation, ofFailed, ofIncluded, ofDepth⟩

namespace Variable

/-- The name of the variable for the target rule. -/
def target : String :=
  "RULES_ENGINE__TARGET_RULE"

theorem pathOf?_target : pathOf? target = some ⟨"engine", [.key "target_rule"]⟩ := by
  decide +kernel

/-- A variable sets neither the target rule nor the settings of the engine as a whole. -/
def LeavesTarget (assigned : Variable) : Prop :=
  ∀ path, pathOf? assigned.1 = some path → Leaves "engine" "target_rule" path

/-- The variable for the target rule gives a layer one setting, which is the guess of its text. -/
theorem layer_target (before after : List Variable) (name : String) :
    layer (before ++ (target, name) :: after) =
      layer before ++ (⟨"engine", [.key "target_rule"]⟩, .scalar (.guess name)) :: layer after := by
  simp [layer, pathOf?_target]

theorem leaves_of_mem_layer
    {assigned : List Variable}
    (leaves : ∀ named ∈ assigned, LeavesTarget named) :
    ∀ setting ∈ layer assigned, Leaves "engine" "target_rule" setting.1 := by
  intro setting member
  obtain ⟨named, isAssigned, isSetting⟩ := List.mem_filterMap.1 member
  obtain ⟨path, isPath, rfl⟩ := Option.map_eq_some_iff.1 isSetting
  exact leaves named isAssigned path isPath

end Variable

namespace Settings

/-- Settings that can be read without a target, or with any other one, can be read with it. Since a
text is wanted, every scalar converts. -/
theorem exists_ofTree?
    {scalar : Scalar}
    {tree left : SettingTree}
    {others : Settings}
    (sets : Sets "engine" "target_rule" scalar tree left)
    (valid : ofTree? tree = some others) :
    ∃ settings, ofTree? left = some settings ∧
      settings.engine.targetRule = some scalar.toText := by
  obtain ⟨serviceName, environment, engine, logging⟩ := ofTree?_eq_some_iff.1 valid
  obtain ⟨fields, rulesPath, factsPath, interpretation, failed, facts, depth⟩ :=
    EngineSettings.exists_fields engine
  refine ⟨{ others with engine := { fields with targetRule := some scalar.toText } }, ?_, rfl⟩
  rw [ofTree?_eq_some_iff, EngineSettings.field_eq_some_iff sets.hasSection,
    sets.field_eq (by decide), ← field_eq_valueAt?, ← field_eq_valueAt?,
    sets.field_eq (by decide), sets.field_eq (by decide), sets.valueAt?_key,
    sets.valueAt?_eq (by decide), sets.valueAt?_eq (by decide), sets.valueAt?_eq (by decide),
    sets.valueAt?_eq (by decide), sets.valueAt?_eq (by decide), sets.valueAt?_eq (by decide)]
  rw [← field_eq_valueAt?] at serviceName environment
  exact ⟨serviceName, environment,
    ⟨rulesPath, factsPath, rfl, interpretation, failed, facts, depth⟩, logging⟩

/-- Whatever the documents and the other variables say, the variable for the target rule makes
the standard form of its text the target: the settings are loaded if they can be loaded without
the variable, or with it and any other text. -/
theorem target_in_standard_form
    {find : String → Except FileFault FileTree}
    {directory environment service : String}
    {before after : List Variable}
    (leaves : ∀ named ∈ after, Variable.LeavesTarget named)
    (valid :
      (∃ others, loadFrom find directory environment service (before ++ after) = some others) ∨
      ∃ other others, loadFrom find directory environment service
        (before ++ (Variable.target, other) :: after) = some others)
    (name : String) :
    ∃ settings scalar,
      loadFrom find directory environment service
          (before ++ (Variable.target, name) :: after) = some settings ∧
        Scalar.IsForm name scalar ∧
        settings.engine.targetRule = some scalar.toText := by
  have leavesLayer := Variable.leaves_of_mem_layer leaves
  -- The tree below the variable is that of the documents and the earlier variables.
  have isSet : ∀ (tree : SettingTree) (text : String),
      Sets "engine" "target_rule" (.guess text) (tree.apply (Variable.layer (before ++ after)))
        (tree.apply (Variable.layer (before ++ (Variable.target, text) :: after))) := by
    intro tree text
    rw [Variable.layer_target, Variable.layer, List.filterMap_append]
    unfold SettingTree.apply
    rw [List.foldl_append, List.foldl_append, List.foldl_cons]
    exact (sets_mergeAt _ _ _ _).apply leavesLayer
  simp only [loadFrom_eq_some_iff, List.foldl_append, List.foldl_cons, List.foldl_nil] at valid ⊢
  have loaded : ∃ layers, (documentPaths directory environment service).mapM
      (Document.layerAt? find) = some layers ∧
        ∃ settings, ofTree? ((layers.foldl apply (baseTree environment service)).apply
            (Variable.layer (before ++ (Variable.target, name) :: after))) = some settings ∧
          settings.engine.targetRule = some (Scalar.guess name).toText := by
    obtain ⟨others, layers, isRead, valid⟩ | ⟨other, others, layers, isRead, valid⟩ := valid
    · exact ⟨layers, isRead, exists_ofTree? (isSet _ name) valid⟩
    · exact ⟨layers, isRead, exists_ofTree? ((isSet _ name).over (isSet _ other)) valid⟩
  obtain ⟨layers, isRead, settings, isSettings, isTarget⟩ := loaded
  exact ⟨settings, .guess name, ⟨layers, isRead, isSettings⟩, Scalar.guess_eq_iff.1 rfl, isTarget⟩

theorem pathOf?_includeFacts :
    Variable.pathOf? "RULES_ENGINE__INCLUDE_FACTS" = some ⟨"engine", [.key "include_facts"]⟩ := by
  decide +kernel

/-- The zeros in front of a number are lost, whatever else the section of the engine says. -/
theorem target_without_zeros :
    ∃ settings scalar,
      loadFrom sectionFiles "config" "test" "host"
          [(Variable.target, "007"), ("RULES_ENGINE__INCLUDE_FACTS", "false")] = some settings ∧
        Scalar.IsForm "007" scalar ∧
        settings.engine.targetRule = some scalar.toText ∧
        scalar.toText = "7" := by
  have leaves : ∀ named ∈ [("RULES_ENGINE__INCLUDE_FACTS", "false")],
      Variable.LeavesTarget named := by
    rw [List.forall_mem_singleton]
    intro path isPath _
    rw [pathOf?_includeFacts, Option.some.injEq] at isPath
    exact ⟨"include_facts", [], by decide, by rw [← isPath]⟩
  have valid : ∃ others, loadFrom sectionFiles "config" "test" "host"
      ([] ++ [("RULES_ENGINE__INCLUDE_FACTS", "false")]) = some others :=
    ⟨_, loadFrom_sectionFiles⟩
  obtain ⟨settings, scalar, loaded, isForm, isTarget⟩ :=
    target_in_standard_form leaves (.inl valid) "007"
  have isNumber : Scalar.guess "007" = .integer 7 := by
    decide +kernel
  obtain rfl := isNumber.symm.trans (Scalar.guess_eq_iff.2 isForm)
  exact ⟨settings, _, loaded, isForm, isTarget, rfl⟩

/-- A name that writes a number is not always the target that arrives. -/
theorem not_forall_target_is_name :
    ¬ ∀ name, ∃ settings,
      loadFrom (fun _ => .error .notFound) "config" "test" "host" [(Variable.target, name)] =
          some settings ∧
        settings.engine.targetRule = some name := by
  intro kept
  obtain ⟨settings, loaded, isTarget⟩ := kept "007"
  have isLoaded : loadFrom (fun _ => .error .notFound) "config" "test" "host"
      [(Variable.target, "007")] =
        some ⟨"host", "test", ⟨"rules", none, some "7", true, true, true, 32⟩, {}⟩ := by
    decide +kernel
  rw [isLoaded, Option.some.injEq] at loaded
  rw [← loaded] at isTarget
  exact absurd isTarget (by decide)

end Settings
end Verdict
