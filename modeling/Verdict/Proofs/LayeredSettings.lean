import Verdict.Proofs.Layering

/-!
# Settings by layers

The settings of the program come from the documents for all environments, for one environment
and for one service, and from variables. Each of them has the value that the highest of these
layers gives it, and its own default where none does, whatever the layers say about the other
settings.

The documents and variables that count here do not turn a section into something else than a
table.
-/

namespace Verdict

/-! ## Settings of the program -/

namespace SettingTree

variable {α : Type} {tree : SettingTree} {name key : String} {default : α}
  {convert : SettingTree → Option α} {entries : List (String × SettingTree)}

theorem field_of_missing (missing : tree.get? name = none) :
    tree.field name default convert = some default := by
  rw [field, missing]

theorem field_of_found
    {part : SettingTree}
    (found : tree.get? name = some part) :
    tree.field name default convert = convert part := by
  rw [field, found]

theorem field_eq_valueAt?
    (tree : SettingTree)
    (key : String)
    (default : α)
    (convert : SettingTree → Option α) :
    tree.field key default convert = tree.valueAt? [key] default convert := by
  cases found : tree.get? key with
  | none => simp [field_of_missing found, valueAt?, part?, found]
  | some part => simp [field_of_found found, valueAt?, part?, found]

theorem valueAt?_of_missing (missing : tree.get? name = none) :
    tree.valueAt? [name, key] default convert = some default := by
  simp [valueAt?, part?, missing]

theorem valueAt?_of_table (found : tree.get? name = some (.table entries)) :
    tree.valueAt? [name, key] default convert = (table entries).field key default convert := by
  rw [field_eq_valueAt?, valueAt?, valueAt?, part?, found, Option.bind_some]

end SettingTree

open SettingTree

/-- The settings of a section are read off a tree one by one. -/
theorem EngineSettings.field_eq_some_iff
    {tree : SettingTree}
    {settings : EngineSettings}
    (has : HasSection "engine" tree) :
    tree.field "engine" {} EngineSettings.ofTree? = some settings ↔
      tree.valueAt? ["engine", "rules_path"] "rules" toText? = some settings.rulesPath ∧
      tree.valueAt? ["engine", "facts_path"] none toOptionalText? = some settings.factsPath ∧
      tree.valueAt? ["engine", "target_rule"] none toOptionalText? = some settings.targetRule ∧
      tree.valueAt? ["engine", "include_interpretation"] true toBoolean? =
        some settings.includeInterpretation ∧
      tree.valueAt? ["engine", "include_failed_conditions"] true toBoolean? =
        some settings.includeFailedConditions ∧
      tree.valueAt? ["engine", "include_facts"] true toBoolean? = some settings.includeFacts ∧
      tree.valueAt? ["engine", "max_depth"] 32 toNatural? = some settings.maxDepth := by
  cases found : tree.get? "engine" with
  | none =>
    simp only [field_of_missing found, valueAt?_of_missing found, Option.some.injEq]
    constructor
    · rintro rfl
      exact ⟨rfl, rfl, rfl, rfl, rfl, rfl, rfl⟩
    · rintro ⟨rulesPath, factsPath, targetRule, interpretation, failed, facts, depth⟩
      cases settings
      simp_all [Evaluation.defaultDepth]
  | some part =>
    obtain ⟨entries, rfl⟩ := has part found
    simp only [field_of_found found, valueAt?_of_table found, EngineSettings.ofTree?, toSection?,
      Option.bind_eq_bind, Option.bind_some, Option.bind_eq_some_iff, Option.pure_def,
      Option.some.injEq]
    constructor
    · rintro ⟨_, rulesPath, _, factsPath, _, targetRule, _, interpretation, _, failed, _, facts,
        _, depth, rfl⟩
      exact ⟨rulesPath, factsPath, targetRule, interpretation, failed, facts, depth⟩
    · rintro ⟨rulesPath, factsPath, targetRule, interpretation, failed, facts, depth⟩
      exact ⟨_, rulesPath, _, factsPath, _, targetRule, _, interpretation, _, failed, _, facts,
        _, depth, rfl⟩

theorem LoggingSettings.field_eq_some_iff
    {tree : SettingTree}
    {settings : LoggingSettings}
    (has : HasSection "observability" tree) :
    tree.field "observability" {} LoggingSettings.ofTree? = some settings ↔
      tree.valueAt? ["observability", "log_level"] "info" toText? = some settings.level ∧
      tree.valueAt? ["observability", "log_format"] "pretty" toText? = some settings.format := by
  cases found : tree.get? "observability" with
  | none =>
    simp only [field_of_missing found, valueAt?_of_missing found, Option.some.injEq]
    constructor
    · rintro rfl
      exact ⟨rfl, rfl⟩
    · rintro ⟨level, format⟩
      cases settings
      simp_all
  | some part =>
    obtain ⟨entries, rfl⟩ := has part found
    simp only [field_of_found found, valueAt?_of_table found, LoggingSettings.ofTree?, toSection?,
      Option.bind_eq_bind, Option.bind_some, Option.bind_eq_some_iff, Option.pure_def,
      Option.some.injEq]
    constructor
    · rintro ⟨_, level, _, format, rfl⟩
      exact ⟨level, format⟩
    · rintro ⟨level, format⟩
      exact ⟨_, level, _, format, rfl⟩

/-- The layer of the document at a path. One that is missing sets nothing. -/
def Document.layerAt? (find : String → Except FileFault FileTree) (path : String) : Option Layer :=
  match Document.find? find path with
  | none => some []
  | some document => document.layer?

/-- Documents that are missing make no difference. -/
theorem Document.foldl_apply_layers
    (find : String → Except FileFault FileTree)
    (paths : List String)
    (tree : SettingTree) :
    ((paths.filterMap (Document.find? find)).mapM Document.layer?).map (·.foldl apply tree) =
      (paths.mapM (Document.layerAt? find)).map (·.foldl apply tree) := by
  induction paths generalizing tree with
  | nil => rfl
  | cons path rest inductionHypothesis =>
    rw [List.mapM_cons]
    cases found : Document.find? find path with
    | none =>
      have nothing : Document.layerAt? find path = some [] := by rw [Document.layerAt?, found]
      rw [List.filterMap_cons_none found, inductionHypothesis, nothing]
      cases rest.mapM (Document.layerAt? find) <;> rfl
    | some document =>
      have something : Document.layerAt? find path = document.layer? := by
        rw [Document.layerAt?, found]
      rw [List.filterMap_cons_some found, List.mapM_cons, something]
      cases document.layer? with
      | none => rfl
      | some layer =>
        have ofRest := inductionHypothesis (tree.apply layer)
        simpa [Option.map_eq_bind, Option.bind_assoc, Function.comp_def] using ofRest

/-- Each layer is that of one of the documents. -/
theorem Document.exists_of_mem_layers
    {find : String → Except FileFault FileTree}
    {paths : List String}
    {layers : List Layer}
    {layer : Layer}
    (isRead : paths.mapM (Document.layerAt? find) = some layers)
    (member : layer ∈ layers) :
    ∃ path ∈ paths, Document.layerAt? find path = some layer := by
  induction paths generalizing layers with
  | nil =>
    obtain rfl := Option.some.inj isRead
    exact nomatch member
  | cons path rest inductionHypothesis =>
    rw [List.mapM_cons] at isRead
    simp only [Option.bind_eq_bind, Option.bind_eq_some_iff, Option.pure_def,
      Option.some.injEq] at isRead
    obtain ⟨first, ofFirst, others, ofOthers, rfl⟩ := isRead
    rcases List.mem_cons.1 member with rfl | inOthers
    · exact ⟨path, List.mem_cons_self, ofFirst⟩
    · obtain ⟨other, isOther, ofOther⟩ := inductionHypothesis ofOthers inOthers
      exact ⟨other, List.mem_cons_of_mem path isOther, ofOther⟩

namespace Settings

/-- Each of the settings has the value that the highest layer gives it that sets it, or its own
default. -/
structure IsLayered (environment service : String) (layers : List Layer) (settings : Settings) :
    Prop where
  serviceName : IsSetBy layers ["service_name"] toText? service settings.serviceName
  environment : IsSetBy layers ["environment"] toText? environment settings.environment
  rulesPath : IsSetBy layers ["engine", "rules_path"] toText? "rules" settings.engine.rulesPath
  factsPath : IsSetBy layers ["engine", "facts_path"] toOptionalText? none settings.engine.factsPath
  targetRule :
    IsSetBy layers ["engine", "target_rule"] toOptionalText? none settings.engine.targetRule
  includeInterpretation : IsSetBy layers ["engine", "include_interpretation"] toBoolean? true
    settings.engine.includeInterpretation
  includeFailedConditions : IsSetBy layers ["engine", "include_failed_conditions"] toBoolean? true
    settings.engine.includeFailedConditions
  includeFacts :
    IsSetBy layers ["engine", "include_facts"] toBoolean? true settings.engine.includeFacts
  maxDepth : IsSetBy layers ["engine", "max_depth"] toNatural? 32 settings.engine.maxDepth
  logLevel : IsSetBy layers ["observability", "log_level"] toText? "info" settings.logging.level
  logFormat :
    IsSetBy layers ["observability", "log_format"] toText? "pretty" settings.logging.format

theorem ofTree?_eq_some_iff
    {tree : SettingTree}
    {settings : Settings} :
    ofTree? tree = some settings ↔
      tree.valueAt? ["service_name"] "" toText? = some settings.serviceName ∧
      tree.valueAt? ["environment"] "" toText? = some settings.environment ∧
      tree.field "engine" {} EngineSettings.ofTree? = some settings.engine ∧
      tree.field "observability" {} LoggingSettings.ofTree? = some settings.logging := by
  simp only [ofTree?, ← field_eq_valueAt?, Option.bind_eq_bind, Option.bind_eq_some_iff,
    Option.pure_def, Option.some.injEq]
  constructor
  · rintro ⟨_, serviceName, _, environment, _, engine, _, logging, rfl⟩
    exact ⟨serviceName, environment, engine, logging⟩
  · rintro ⟨serviceName, environment, engine, logging⟩
    exact ⟨_, serviceName, _, environment, _, engine, _, logging, rfl⟩

/-- The settings of layers have the values that the layers give them one by one. -/
theorem ofTree?_foldl_apply_eq_some_iff
    {environment service : String}
    {layers : List Layer}
    {settings : Settings}
    (keepsEngine : ∀ layer ∈ layers, KeepsSection "engine" layer)
    (keepsLogging : ∀ layer ∈ layers, KeepsSection "observability" layer) :
    ofTree? (layers.foldl apply (baseTree environment service)) = some settings ↔
      IsLayered environment service layers settings := by
  have ofKey : ∀ key, ∀ layer ∈ layers, Covers layer [key] :=
    fun key layer _ => covers_key layer key
  have ofEngine : ∀ key, ∀ layer ∈ layers, Covers layer ["engine", key] :=
    fun key layer member => covers_section (keepsEngine layer member) key
  have ofLogging : ∀ key, ∀ layer ∈ layers, Covers layer ["observability", key] :=
    fun key layer member => covers_section (keepsLogging layer member) key
  have hasEngine : HasSection "engine" (layers.foldl apply (baseTree environment service)) :=
    (hasSection_of_missing rfl).foldl_apply keepsEngine
  have hasLogging :
      HasSection "observability" (layers.foldl apply (baseTree environment service)) :=
    (hasSection_of_missing rfl).foldl_apply keepsLogging
  rw [ofTree?_eq_some_iff, EngineSettings.field_eq_some_iff hasEngine,
    LoggingSettings.field_eq_some_iff hasLogging,
    isSetBy_iff goesByKind_toText? (ofKey "service_name") rfl,
    isSetBy_iff goesByKind_toText? (ofKey "environment") rfl,
    isSetBy_iff goesByKind_toText? (ofEngine "rules_path") rfl,
    isSetBy_iff goesByKind_toOptionalText? (ofEngine "facts_path") rfl,
    isSetBy_iff goesByKind_toOptionalText? (ofEngine "target_rule") rfl,
    isSetBy_iff goesByKind_toBoolean? (ofEngine "include_interpretation") rfl,
    isSetBy_iff goesByKind_toBoolean? (ofEngine "include_failed_conditions") rfl,
    isSetBy_iff goesByKind_toBoolean? (ofEngine "include_facts") rfl,
    isSetBy_iff goesByKind_toNatural? (ofEngine "max_depth") rfl,
    isSetBy_iff goesByKind_toText? (ofLogging "log_level") rfl,
    isSetBy_iff goesByKind_toText? (ofLogging "log_format") rfl]
  constructor
  · rintro ⟨serviceName, environment, ⟨rulesPath, factsPath, targetRule, interpretation, failed,
      facts, depth⟩, level, format⟩
    exact ⟨serviceName, environment, rulesPath, factsPath, targetRule, interpretation, failed,
      facts, depth, level, format⟩
  · rintro ⟨serviceName, environment, rulesPath, factsPath, targetRule, interpretation, failed,
      facts, depth, level, format⟩
    exact ⟨serviceName, environment, ⟨rulesPath, factsPath, targetRule, interpretation, failed,
      facts, depth⟩, level, format⟩

theorem loadFrom_eq_some_iff
    {find : String → Except FileFault FileTree}
    {directory environment service : String}
    {assigned : List Variable}
    {settings : Settings} :
    loadFrom find directory environment service assigned = some settings ↔
      ∃ layers, (documentPaths directory environment service).mapM (Document.layerAt? find) =
          some layers ∧
        ofTree? ((layers ++ [Variable.layer assigned]).foldl apply
          (baseTree environment service)) = some settings := by
  have same := Document.foldl_apply_layers find (documentPaths directory environment service)
    (baseTree environment service)
  have ofFound : ∀ (found : Option (List Layer)) (read : SettingTree → Option Settings) tree,
      (∃ layers, found = some layers ∧ read (layers.foldl apply tree) = some settings) ↔
        (found.map (·.foldl apply tree)).bind read = some settings := by
    intro found read tree
    cases found <;> simp
  simp only [loadFrom, ofLayers?, List.foldl_append, List.foldl_cons, List.foldl_nil,
    Option.bind_eq_bind, Option.bind_eq_some_iff]
  rw [ofFound _ fun tree => ofTree? (tree.apply (Variable.layer assigned)), same, ← ofFound]

/-- Nothing in a layer replaces one of the two sections by something else than a table. -/
def KeepsSections (layer : Layer) : Prop :=
  KeepsSection "engine" layer ∧ KeepsSection "observability" layer

instance (layer : Layer) : Decidable (KeepsSections layer) :=
  inferInstanceAs (Decidable (_ ∧ _))

/-- Settings are loaded exactly if all documents are well formed and each setting has a value of
its kind: the one given by the highest layer that sets it, where variables are above the
document for the service, this one above that for the environment, and this one above the
document for all environments, and its own default where no layer sets it. A missing document
sets nothing. -/
theorem loaded_by_highest_layers
    {find : String → Except FileFault FileTree}
    {directory environment service : String}
    {assigned : List Variable}
    (tables : ∀ path ∈ documentPaths directory environment service, ∀ layer,
      Document.layerAt? find path = some layer → KeepsSections layer)
    (named : KeepsSections (Variable.layer assigned))
    (settings : Settings) :
    loadFrom find directory environment service assigned = some settings ↔
      ∃ layers, (documentPaths directory environment service).mapM (Document.layerAt? find) =
          some layers ∧
        IsLayered environment service (layers ++ [Variable.layer assigned]) settings := by
  rw [loadFrom_eq_some_iff]
  apply exists_congr
  intro layers
  apply and_congr_right
  intro isRead
  have keeps : ∀ layer ∈ layers ++ [Variable.layer assigned], KeepsSections layer := by
    intro layer member
    rcases List.mem_append.1 member with inDocuments | isLast
    · obtain ⟨path, isPath, ofPath⟩ := Document.exists_of_mem_layers isRead inDocuments
      exact tables path isPath layer ofPath
    · rw [List.mem_singleton.1 isLast]
      exact named
  exact ofTree?_foldl_apply_eq_some_iff (fun layer member => (keeps layer member).1)
    fun layer member => (keeps layer member).2

/-- A document for all environments and one for a service, with a section each. -/
def sectionFiles (path : String) : Except FileFault FileTree :=
  if path = "config/default.toml" then
    .ok (.file "# for all\n[engine]\nrules_path = \"data\"\nmax_depth = 8\n".toUTF8)
  else if path = "config/host.toml" then .ok (.file "engine.max_depth = 16\n".toUTF8)
  else .error .notFound

theorem loadFrom_sectionFiles :
    loadFrom sectionFiles "config" "test" "host" [("RULES_ENGINE__INCLUDE_FACTS", "false")] =
      some ⟨"host", "test", ⟨"data", none, none, true, true, false, 16⟩, {}⟩ := by
  decide +kernel

/-- The document for the service and a variable set one setting of a section each, and the
section keeps what the document for all environments says besides. -/
theorem loaded_from_sections :
    ∃ settings layers,
      loadFrom sectionFiles "config" "test" "host" [("RULES_ENGINE__INCLUDE_FACTS", "false")] =
          some settings ∧
        settings.engine.rulesPath = "data" ∧ settings.engine.maxDepth = 16 ∧
        settings.engine.includeFacts = false ∧
        IsLayered "test" "host"
          (layers ++ [Variable.layer [("RULES_ENGINE__INCLUDE_FACTS", "false")]]) settings := by
  have tables : ∀ path ∈ documentPaths "config" "test" "host",
      ∀ layer ∈ Document.layerAt? sectionFiles path, KeepsSections layer := by
    decide +kernel
  have named : KeepsSections (Variable.layer [("RULES_ENGINE__INCLUDE_FACTS", "false")]) := by
    decide +kernel
  obtain ⟨layers, _, layered⟩ := (loaded_by_highest_layers tables named _).1 loadFrom_sectionFiles
  exact ⟨_, layers, loadFrom_sectionFiles, rfl, rfl, rfl, layered⟩

end Settings

end Verdict
