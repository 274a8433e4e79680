import Verdict.Engine
import Verdict.Settings.Document
import Verdict.Settings.Variable

/-!
# Settings

The settings of the program come from several layers: built-in defaults, the
documents for all environments, for one environment and for one service, and
environment variables. A later layer replaces each setting that it names.

A setting that has no value of its kind, in whatever layer, makes all of them
unusable; one that has no value at all has its default.
-/

namespace Verdict

/-- Where rules and facts are, and how they are evaluated. -/
structure EngineSettings where
  rulesPath : String := "rules"
  factsPath : Option String := none
  targetRule : Option String := none
  includeInterpretation : Bool := true
  includeFailedConditions : Bool := true
  includeFacts : Bool := true
  maxDepth : Nat := Evaluation.defaultDepth
  deriving DecidableEq

/-- How events of the program are logged. -/
structure LoggingSettings where
  level : String := "info"
  format : String := "pretty"
  deriving DecidableEq

/-- The settings of the program. -/
structure Settings where
  serviceName : String := ""
  environment : String := ""
  engine : EngineSettings := {}
  logging : LoggingSettings := {}
  deriving DecidableEq

namespace SettingTree

/-- A tree where a text is wanted. -/
def toText? : SettingTree → Option String
  | .scalar value => some value.toText
  | _ => none

/-- A tree where a text may be given. -/
def toOptionalText? : SettingTree → Option (Option String)
  | .absent => some none
  | tree => tree.toText?.map some

/-- A tree where a boolean is wanted. -/
def toBoolean? : SettingTree → Option Bool
  | .scalar value => value.toBoolean?
  | _ => none

/-- A tree where a natural is wanted. -/
def toNatural? : SettingTree → Option Nat
  | .scalar value => value.toNatural?
  | _ => none

/-- A tree where a section with the given fields is wanted. A list gives them in
their order, as many as it has items. -/
def toSection? (fields : List String) : SettingTree → Option SettingTree
  | .table entries => some (.table entries)
  | .list items => some (.table (fields.zip items))
  | _ => none

/-- The converted value of a key, or a default if the key has none. Nothing
results if the value cannot be converted. -/
def field {α : Type} (tree : SettingTree) (key : String) (default : α)
    (convert : SettingTree → Option α) : Option α :=
  match tree.get? key with
  | none => some default
  | some value => convert value

end SettingTree

namespace EngineSettings

/-- The options of an engine under the settings. -/
def options (settings : EngineSettings) : EngineOptions where
  includeInterpretation := settings.includeInterpretation
  includeFailedConditions := settings.includeFailedConditions
  includeFacts := settings.includeFacts
  maxDepth := settings.maxDepth

/-- The names of the settings, in their order. -/
def fields : List String :=
  ["rules_path", "facts_path", "target_rule", "include_interpretation",
    "include_failed_conditions", "include_facts", "max_depth"]

/-- The settings in a section, with defaults for those that it does not give. -/
def ofTree? (tree : SettingTree) : Option EngineSettings := do
  let tree ← tree.toSection? fields
  let default : EngineSettings := {}
  let rulesPath ← tree.field "rules_path" default.rulesPath SettingTree.toText?
  let factsPath ← tree.field "facts_path" default.factsPath SettingTree.toOptionalText?
  let targetRule ← tree.field "target_rule" default.targetRule SettingTree.toOptionalText?
  let includeInterpretation ←
    tree.field "include_interpretation" default.includeInterpretation SettingTree.toBoolean?
  let includeFailedConditions ←
    tree.field "include_failed_conditions" default.includeFailedConditions SettingTree.toBoolean?
  let includeFacts ← tree.field "include_facts" default.includeFacts SettingTree.toBoolean?
  let maxDepth ← tree.field "max_depth" default.maxDepth SettingTree.toNatural?
  return ⟨rulesPath, factsPath, targetRule, includeInterpretation, includeFailedConditions,
    includeFacts, maxDepth⟩

end EngineSettings

namespace LoggingSettings

/-- The names of the settings, in their order. -/
def fields : List String :=
  ["log_level", "log_format"]

/-- The settings in a section, with defaults for those that it does not give. -/
def ofTree? (tree : SettingTree) : Option LoggingSettings := do
  let tree ← tree.toSection? fields
  let default : LoggingSettings := {}
  let level ← tree.field "log_level" default.level SettingTree.toText?
  let format ← tree.field "log_format" default.format SettingTree.toText?
  return ⟨level, format⟩

/-- Whether events are logged as JSON; case does not count. -/
def isJson (settings : LoggingSettings) : Bool :=
  settings.format.toLower == "json"

end LoggingSettings

namespace Settings

/-- Whether the environment is that of production. -/
def isProduction (settings : Settings) : Bool :=
  settings.environment == "production"

/-- The settings in a tree, with defaults for those that it does not name. -/
def ofTree? (tree : SettingTree) : Option Settings := do
  let default : Settings := {}
  let serviceName ← tree.field "service_name" default.serviceName SettingTree.toText?
  let environment ← tree.field "environment" default.environment SettingTree.toText?
  let engine ← tree.field "engine" default.engine EngineSettings.ofTree?
  let logging ← tree.field "observability" default.logging LoggingSettings.ofTree?
  return ⟨serviceName, environment, engine, logging⟩

/-- The settings that the caller gives and every other layer may replace. -/
def baseTree (environment service : String) : SettingTree :=
  .table [("service_name", .scalar (.text service)), ("environment", .scalar (.text environment))]

/-- The settings of layers, later ones over earlier ones. Nothing results if a
document is not well formed, or if a setting has no value of its kind. -/
def ofLayers? (environment service : String) (documents : List Document)
    (assigned : List Variable) : Option Settings := do
  let layers ← documents.mapM Document.layer?
  ofTree? ((layers ++ [Variable.layer assigned]).foldl SettingTree.apply
    (baseTree environment service))

/-- The paths at which documents of settings are looked up, earlier layers first. -/
def documentPaths (directory environment service : String) : List String :=
  let path (name : String) : String :=
    if name.startsWith "/" then name
    else if directory.isEmpty then name
    else if directory.endsWith "/" then directory ++ name
    else directory ++ "/" ++ name
  ["default", environment, service].map fun name => path (name ++ Document.ending)

/-- The directory of the documents of settings. -/
def directoryOf (assigned : List Variable) : String :=
  Variable.textOf assigned "CONFIG_DIR" "config"

/-- The environment for which settings are loaded. -/
def environmentOf (assigned : List Variable) : String :=
  Variable.textOf assigned "RULES_ENV" "development"

/-- The settings for an environment and a service, with the documents of a directory. -/
def loadFrom (find : String → Except FileFault FileTree) (directory environment service : String)
    (assigned : List Variable) : Option Settings :=
  let documents := (documentPaths directory environment service).filterMap (Document.find? find)
  ofLayers? environment service documents assigned

/-- The settings for a service; variables give the directory and the environment. -/
def load (find : String → Except FileFault FileTree) (service : String)
    (assigned : List Variable) : Option Settings :=
  loadFrom find (directoryOf assigned) (environmentOf assigned) service assigned

end Settings

end Verdict
