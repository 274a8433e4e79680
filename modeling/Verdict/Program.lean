import Verdict.Loading
import Verdict.Settings

/-!
# The program

The program loads rules and facts as its settings say, checks the references
between the rules, and evaluates the target, or all rules if there is no target.
It prints the outcomes.

Its status tells whether a target holds. A failure at any stage has a status of
its own and prints no outcomes.
-/

namespace Verdict
namespace Program

/-- The service whose settings the program loads. -/
def serviceName : String :=
  "rule-engine"

/-- Why the program has no outcomes to print. -/
inductive Failure where
  | rulesNotLoaded (path : String) (error : Error)
  | failed (error : Error)
  deriving DecidableEq

/-- The message of a failure, with that of the fault behind it. -/
def Failure.message : Failure → String
  | .rulesNotLoaded path error =>
    "failed to load rules from " ++ path ++ ": " ++ error.fullMessage
  | .failed error => error.fullMessage

/-- What the program leaves behind. -/
structure Report where
  status : Nat
  output : String
  failure : Option Failure
  deriving DecidableEq

/-- Registers all rules, or says which name is taken. -/
def registerAll (engine : Engine) (rules : List Rule) : Except Error Engine :=
  match engine.addRules rules with
  | (engine, none) => .ok engine
  | (_, some error) => .error error

/-- The engine with rules and facts loaded and references checked. -/
def prepare (settings : EngineSettings) (find : String → Except FileFault FileTree) :
    Except Failure Engine := do
  let rules ← (Loading.loadPath settings.rulesPath (find settings.rulesPath)).mapError
    (.rulesNotLoaded settings.rulesPath)
  let engine ← (registerAll { options := settings.options } rules).mapError .failed
  engine.registry.validate.mapError .failed
  match settings.factsPath with
  | none => return engine
  | some path => do
    let facts ← (Loading.loadFacts path (find path)).mapError .failed
    return engine.setFacts facts

/-- The outcomes to print, and whether what was asked for holds. -/
def outcomes (settings : EngineSettings) (engine : Engine) : Except Error (List Outcome × Bool) :=
  match settings.targetRule with
  | some target => do
    let engine ← engine.setTarget target
    let outcome ← engine.evaluate
    return ([outcome], outcome.matched)
  | none => engine.run.map fun outcomes => (outcomes, true)

/-- Outcomes as they are printed, with a line break at the end. -/
def printed (outcomes : List Outcome) : String :=
  (Json.array (outcomes.map Outcome.toJson)).pretty ++ "\n"

/-- Runs the program with settings that were loaded. -/
def evaluate (settings : EngineSettings) (find : String → Except FileFault FileTree) :
    Except Failure (List Outcome × Bool) := do
  let engine ← prepare settings find
  (outcomes settings engine).mapError .failed

/-- What the program leaves behind under given settings. -/
def report (settings : EngineSettings) (find : String → Except FileFault FileTree) : Report :=
  match evaluate settings find with
  | .ok (outcomes, holds) =>
    { status := if holds then 0 else 1, output := printed outcomes, failure := none }
  | .error failure => { status := 2, output := "", failure := some failure }

/-- The paths at which the program looks for documents of settings. -/
def documentPaths (assigned : List Variable) : List String :=
  (Settings.documentPaths (Settings.directoryOf assigned) (Settings.environmentOf assigned)
    serviceName).flatMap Document.candidates

/-- The settings of the program, and whether they could not be loaded and are
those built in. -/
def settings (find : String → Except FileFault FileTree) (assigned : List Variable) :
    Settings × Bool :=
  match Settings.load find serviceName assigned with
  | some settings => (settings, false)
  | none => ({}, true)

/-- Runs the program. The flag tells whether settings could not be loaded. -/
def run (find : String → Except FileFault FileTree) (assigned : List Variable) : Report × Bool :=
  let (settings, isFallback) := settings find assigned
  (report settings.engine find, isFallback)

end Program
end Verdict
