import Verdict.Program
import Verdict.Proofs.Queries
import Verdict.Proofs.ReferenceSafety

/-!
# The status of the program

The program goes through stages: it loads rules, registers them, checks their references,
loads facts, chooses the target if the settings name one, and evaluates the target or else
all rules. This module shows that the program prints outcomes exactly if every stage succeeds,
and what it prints: one object for each outcome, in an array on indented lines. Its status tells
of a stage that failed by two, of a target that does not hold by one, and of everything else by
zero.

When the check of references has succeeded, no later stage fails for a circle or for a name
that is unknown.
-/

namespace Verdict

/-- An error is about references between rules: they close a circle, or one leads nowhere. -/
def Error.OfReferences : Error → Prop
  | .circularReference _ => True
  | .unknownRule _ => True
  | _ => False

/-! ## Errors that are not about references -/

theorem Leaf.not_ofReferences_of_matches?
    {leaf : Leaf}
    {facts : Facts}
    {error : Error}
    (failed : leaf.matches? facts = .error error) :
    ¬error.OfReferences := by
  have ofLeaf := error_of_matches? failed
  cases error with
  | circularReference | unknownRule => exact False.elim ofLeaf
  | _ => exact id

theorem Loading.not_ofReferences_of_loadFacts
    {path : String}
    {found : Except FileFault FileTree}
    {error : Error}
    (failed : loadFacts path found = .error error) :
    ¬error.OfReferences := by
  rcases error_of_bind failed with unread | ⟨text, _, failed⟩
  · obtain ⟨fault, _, rfl⟩ := exists_of_mapError unread
    exact id
  · rcases error_of_bind failed with undecoded | ⟨value, _, notFacts⟩
    · obtain ⟨fault, _, rfl⟩ := exists_of_mapError undecoded
      exact id
    · unfold Facts.ofJson at notFacts
      split at notFacts
      · exact nomatch notFacts
      · obtain rfl := Except.error.inj notFacts
        exact id

/-- What is permitted to happen after the check of references is not about references. -/
theorem Executor.Permits.not_ofReferences
    {executor : Executor}
    {error : Error}
    (permits : executor.Permits error) :
    ¬error.OfReferences := by
  rcases permits with ⟨_, _, comparison, _, inLeaf⟩ | ⟨_, depth, rfl⟩
  · exact Leaf.not_ofReferences_of_matches? inLeaf
  · exact id

namespace Engine

variable {engine : Engine} {name : String} {error : Error}

/-- After the check of references no rule fails for references when all are evaluated. -/
theorem not_ofReferences_of_run
    (validated : engine.registry.validate = .ok ())
    (failed : engine.run = .error error) :
    ¬error.OfReferences := by
  obtain ⟨before, rule, after, split, _, inRule⟩ := mapM_eq_error_iff.1 failed
  have isRegistered : rule ∈ engine.registry.rules :=
    split ▸ List.mem_append_right before List.mem_cons_self
  have named : rule.name ∈ engine.registry.names := List.mem_map_of_mem isRegistered
  have byName : engine.executor.executeByName rule.name = .error error :=
    (Executor.executeByName_of_rule_mem isRegistered).trans (error_of_map inRule)
  exact (Executor.permits_of_executeByName validated named byName).not_ofReferences

/-- After the check of references a target that is registered does not fail for
references. -/
theorem not_ofReferences_of_evaluate
    (validated : engine.registry.validate = .ok ())
    (isTarget : engine.target = some name)
    (isRegistered : name ∈ engine.registry.names)
    (failed : engine.evaluate = .error error) :
    ¬error.OfReferences := by
  have named : engine.targetName = .ok name := by rw [targetName, isTarget]
  rcases evaluate_eq_error_iff.1 failed with inExecution | ⟨_, _, inExplanation⟩
  · rw [evaluateDetailed, named] at inExecution
    exact (Executor.permits_of_executeByName validated isRegistered inExecution).not_ofReferences
  · obtain ⟨rule, found⟩ := Registry.exists_get?_of_mem isRegistered
    rw [interpret, named] at inExplanation
    change (engine.registry.get name).bind _ = _ at inExplanation
    rw [Registry.get_eq_ok_iff.2 found] at inExplanation
    obtain ⟨comparison, _, rfl⟩ := Condition.error_of_explain inExplanation
    exact id

end Engine

/-! ## What is printed -/

/-- The member of an object of fields is the field of its key, if that one is present. -/
theorem Json.get?_ofFields
    {fields : List (String × Option Json)}
    (distinct : (fields.map Prod.fst).Nodup)
    (key : String) :
    (ofFields fields).get? key = (fields.lookup key).join := by
  change (fields.filterMap _).lookup key = _
  induction fields with
  | nil => rfl
  | cons field rest inductionHypothesis =>
    obtain ⟨name, value⟩ := field
    obtain ⟨isNew, distinctRest⟩ := List.nodup_cons.1 distinct
    have inRest := inductionHypothesis distinctRest
    rw [Dictionary.lookup_cons_eq_ite]
    by_cases same : key = name
    · subst same
      rw [if_pos rfl]
      cases value with
      | some value => simp
      | none =>
        have notLater : rest.lookup key = none := by
          rw [List.lookup_eq_none_iff]
          intro other member
          exact bne_iff_ne.2 fun same => isNew (List.mem_map.2 ⟨other, member, same.symm⟩)
        rw [List.filterMap_cons_none rfl, inRest, notLater]
        rfl
    · rw [if_neg same, ← inRest]
      cases value <;> simp [Dictionary.lookup_cons_eq_ite, same]

/-- An object shows an outcome: it has the type and the parameters of the event, it has the facts,
the explanation and the failed conditions that the outcome has, and it has nothing else. -/
structure Outcome.IsShownBy (outcome : Outcome) (written : Json) : Prop where
  type : written.get? "type" = some (.string outcome.event.type)
  params : written.get? "params" = some (.object outcome.event.params.entries)
  facts : written.get? "facts" = outcome.facts
  interpretation : written.get? "interpretation" = outcome.interpretation.map .string
  failedConditions : written.get? "failedConditions" =
    outcome.failedConditions.map fun clauses => .array (clauses.map Clause.toJson)
  others : ∀ key, key ∉ ["type", "params", "facts", "interpretation", "failedConditions"] →
    written.get? key = none

/-- What is written of an outcome shows it. -/
theorem Outcome.isShownBy_toJson (outcome : Outcome) : outcome.IsShownBy outcome.toJson := by
  have isField : ∀ key, outcome.toJson.get? key = _ := Json.get?_ofFields (by simp)
  constructor
  case others =>
    intro key isOther
    simp only [List.mem_cons, List.not_mem_nil, or_false, not_or] at isOther
    obtain ⟨notType, notParams, notFacts, notInterpretation, notFailed⟩ := isOther
    rw [isField]
    simp [Dictionary.lookup_cons_eq_ite, *]
  all_goals
    rw [isField]
    rfl

namespace Program

variable {settings : EngineSettings} {find : String → Except FileFault FileTree}
  {engine : Engine} {registry : Registry} {outcomes : List Outcome} {error : Error}
  {failure : Failure}

/-! ## Stages -/

/-- Rules are loaded, all of them are registered, and their references are as they should
be. -/
structure Checked (settings : EngineSettings) (find : String → Except FileFault FileTree)
    (registry : Registry) : Prop where
  registered : ∃ rules,
    Loading.loadPath settings.rulesPath (find settings.rulesPath) = .ok rules ∧
      Registry.empty.registerAll rules = (registry, none)
  validated : registry.validate = .ok ()

/-- Facts are loaded if the settings say from where, and otherwise there are none. -/
def GivesFacts (settings : EngineSettings) (find : String → Except FileFault FileTree)
    (facts : Facts) : Prop :=
  match settings.factsPath with
  | none => facts = ∅
  | some path => Loading.loadFacts path (find path) = .ok facts

/-- An engine has the rules, the facts and the options that the settings ask for. -/
structure Prepared (settings : EngineSettings) (find : String → Except FileFault FileTree)
    (engine : Engine) : Prop where
  checked : Checked settings find engine.registry
  facts : GivesFacts settings find engine.facts
  target : engine.target = none
  options : engine.options = settings.options

/-- An engine gives outcomes: that of the target, if the settings name one, or else those of
all rules. -/
def Answers (settings : EngineSettings) (engine : Engine) (outcomes : List Outcome) : Prop :=
  match settings.targetRule with
  | none => engine.run = .ok outcomes
  | some target => ∃ chosen outcome,
      engine.setTarget target = .ok chosen ∧ chosen.evaluate = .ok outcome ∧ outcomes = [outcome]

/-- Every stage succeeds: an engine is prepared, and gives outcomes. -/
structure Succeeds (settings : EngineSettings) (find : String → Except FileFault FileTree)
    (engine : Engine) (outcomes : List Outcome) : Prop where
  prepared : Prepared settings find engine
  answers : Answers settings engine outcomes

/-- The settings name a target, and it does not hold. -/
def TargetFails (settings : EngineSettings) (engine : Engine) : Prop :=
  ∃ target evaluation, settings.targetRule = some target ∧
    engine.executor.executeByName target = .ok evaluation ∧ evaluation.verdict = false

/-- The error behind a failure. -/
def Failure.cause : Failure → Error
  | .rulesNotLoaded _ cause => cause
  | .failed cause => cause

/-! ## When stages succeed -/

theorem registerAll_eq_ok_iff
    {rules : List Rule}
    {later : Engine} :
    registerAll engine rules = .ok later ↔
      ∃ registry, engine.registry.registerAll rules = (registry, none) ∧
        later = { engine with registry } := by
  unfold registerAll Engine.addRules
  obtain ⟨registry, refused⟩ := engine.registry.registerAll rules
  cases refused <;> simp [eq_comm]

/-- An engine is prepared exactly if each of the stages up to then succeeds. -/
theorem prepare_eq_ok_iff : prepare settings find = .ok engine ↔ Prepared settings find engine := by
  simp only [prepare, bind_eq_ok_iff, mapError_eq_ok_iff, registerAll_eq_ok_iff]
  constructor
  · rintro ⟨rules, loaded, _, ⟨registry, registered, rfl⟩, _, validated, rest⟩
    have checked : Checked settings find registry := ⟨⟨rules, loaded, registered⟩, validated⟩
    cases given : settings.factsPath with
    | none =>
      rw [given] at rest
      obtain rfl := Except.ok.inj rest
      exact ⟨checked, by rw [GivesFacts, given], rfl, rfl⟩
    | some path =>
      rw [given] at rest
      obtain ⟨facts, loadedFacts, isEngine⟩ := bind_eq_ok_iff.1 rest
      obtain rfl := Except.ok.inj isEngine
      exact ⟨checked, by rw [GivesFacts, given]; exact mapError_eq_ok_iff.1 loadedFacts, rfl, rfl⟩
  · rintro ⟨⟨⟨rules, loaded, registered⟩, validated⟩, facts, target, options⟩
    obtain ⟨registry, givenFacts, _, _⟩ := engine
    subst target options
    refine ⟨rules, loaded, _, ⟨registry, registered, rfl⟩, (), validated, ?_⟩
    unfold GivesFacts at facts
    split
    · rename_i given
      rw [given] at facts
      obtain rfl : givenFacts = ∅ := facts
      rfl
    · rename_i path given
      rw [given] at facts
      exact bind_eq_ok_iff.2 ⟨givenFacts, mapError_eq_ok_iff.2 facts, rfl⟩

/-- The outcome of a target that is chosen tells whether the target fails. -/
theorem targetFails_iff
    {target : String}
    {chosen : Engine}
    {outcome : Outcome}
    (named : settings.targetRule = some target)
    (isTarget : engine.setTarget target = .ok chosen)
    (evaluated : chosen.evaluate = .ok outcome) :
    TargetFails settings engine ↔ outcome.matched = false := by
  obtain ⟨_, _, rfl⟩ := exists_of_map isTarget
  obtain ⟨_, evaluation, detailed, reports⟩ := Engine.evaluate_eq_ok_iff.1 evaluated
  have executed : engine.executor.executeByName target = .ok evaluation := detailed
  rw [reports.matched]
  constructor
  · rintro ⟨other, found, alsoNamed, executedOther, fails⟩
    obtain rfl : target = other := Option.some.inj (named.symm.trans alsoNamed)
    obtain rfl : evaluation = found := Except.ok.inj (executed.symm.trans executedOther)
    exact fails
  · intro fails
    exact ⟨target, evaluation, named, executed, fails⟩

/-- What comes out is what the engine gives, and it counts as failed exactly if the settings
name a target that does not hold. -/
theorem outcomes_eq_ok_iff
    {holds : Bool} :
    Program.outcomes settings engine = .ok (outcomes, holds) ↔
      Answers settings engine outcomes ∧ (holds = false ↔ TargetFails settings engine) := by
  unfold Program.outcomes Answers
  cases named : settings.targetRule with
  | none =>
    have noTarget : ¬TargetFails settings engine := by
      rintro ⟨_, _, isNamed, _⟩
      exact nomatch named.symm.trans isNamed
    cases engine.run <;> simp [Except.map, noTarget]
  | some target =>
    simp only [bind_eq_ok_iff]
    constructor
    · rintro ⟨chosen, isTarget, outcome, evaluated, same⟩
      obtain ⟨rfl, rfl⟩ := Prod.mk.inj (Except.ok.inj same)
      exact ⟨⟨chosen, outcome, isTarget, evaluated, rfl⟩,
        (targetFails_iff named isTarget evaluated).symm⟩
    · rintro ⟨⟨chosen, outcome, isTarget, evaluated, rfl⟩, counts⟩
      rw [targetFails_iff named isTarget evaluated, Bool.eq_false_iff, Bool.eq_false_iff,
        not_iff_not, Bool.coe_iff_coe] at counts
      exact ⟨chosen, isTarget, outcome, evaluated, counts ▸ rfl⟩

/-- The program has outcomes exactly if every stage succeeds. -/
theorem evaluate_eq_ok_iff
    {holds : Bool} :
    Program.evaluate settings find = .ok (outcomes, holds) ↔
      ∃ engine, Succeeds settings find engine outcomes ∧
        (holds = false ↔ TargetFails settings engine) := by
  simp only [Program.evaluate, bind_eq_ok_iff, mapError_eq_ok_iff, prepare_eq_ok_iff,
    outcomes_eq_ok_iff]
  constructor
  · rintro ⟨engine, prepared, answers, counts⟩
    exact ⟨engine, ⟨prepared, answers⟩, counts⟩
  · rintro ⟨engine, ⟨prepared, answers⟩, counts⟩
    exact ⟨engine, prepared, answers, counts⟩

/-! ## What is left behind -/

theorem printed_ne_empty (outcomes : List Outcome) : printed outcomes ≠ "" := by
  intro isEmpty
  have lengths := congrArg String.length isEmpty
  simp [printed] at lengths

/-- Where every stage succeeds, outcomes are printed, and the status tells whether the target
fails. -/
theorem report_of_succeeds
    (succeeds : Succeeds settings find engine outcomes) :
    (report settings find).output = printed outcomes ∧
      (report settings find).failure = none ∧
      (TargetFails settings engine → (report settings find).status = 1) ∧
      (¬TargetFails settings engine → (report settings find).status = 0) := by
  classical
  have evaluated : Program.evaluate settings find =
      .ok (outcomes, !decide (TargetFails settings engine)) :=
    evaluate_eq_ok_iff.2 ⟨engine, succeeds, by simp⟩
  unfold report
  rw [evaluated]
  by_cases fails : TargetFails settings engine <;> simp [fails]

/-- Where a stage fails, nothing is printed, and the failure is reported. -/
theorem report_of_fails
    (fails : ¬∃ engine outcomes, Succeeds settings find engine outcomes) :
    (report settings find).output = "" ∧ (report settings find).status = 2 ∧
      ∃ failure, (report settings find).failure = some failure ∧
        Program.evaluate settings find = .error failure := by
  unfold report
  cases evaluated : Program.evaluate settings find with
  | error failure => exact ⟨rfl, rfl, failure, rfl, rfl⟩
  | ok found =>
    obtain ⟨outcomes, holds⟩ := found
    obtain ⟨engine, succeeds, _⟩ := evaluate_eq_ok_iff.1 evaluated
    exact absurd ⟨engine, outcomes, succeeds⟩ fails

/-! ## After the check of references -/

/-- No outcome is missing for references that were checked. -/
theorem not_ofReferences_of_outcomes
    (validated : engine.registry.validate = .ok ())
    (failed : Program.outcomes settings engine = .error error) :
    ¬error.OfReferences := by
  unfold Program.outcomes at failed
  split at failed
  · rename_i target _
    by_cases isRegistered : target ∈ engine.registry.names
    · let chosen : Engine := { engine with target := some target }
      have isChecked : chosen.registry.validate = .ok () := validated
      have afterChoice := error_of_bind_of_ok (Engine.setTarget_of_mem isRegistered) failed
      rcases error_of_bind afterChoice with inEvaluation | ⟨_, _, isError⟩
      · exact Engine.not_ofReferences_of_evaluate isChecked rfl isRegistered inEvaluation
      · exact nomatch isError
    · rw [Engine.setTarget_of_not_mem isRegistered] at failed
      obtain rfl := Except.error.inj failed
      exact id
  · exact Engine.not_ofReferences_of_run validated (error_of_map failed)

/-- Once references are checked, only the facts can keep an engine from being prepared. -/
theorem not_ofReferences_of_prepare
    (checked : Checked settings find registry)
    (failed : prepare settings find = .error failure) :
    ¬failure.cause.OfReferences := by
  obtain ⟨⟨rules, loaded, registered⟩, validated⟩ := checked
  have afterLoading := error_of_bind_of_ok (mapError_eq_ok_iff.2 loaded) failed
  have isEngine : registerAll { options := settings.options } rules =
      .ok { registry, options := settings.options } :=
    registerAll_eq_ok_iff.2 ⟨registry, registered, rfl⟩
  have afterRegistration := error_of_bind_of_ok (mapError_eq_ok_iff.2 isEngine) afterLoading
  have afterCheck := error_of_bind_of_ok (mapError_eq_ok_iff.2 validated) afterRegistration
  cases given : settings.factsPath with
  | none =>
    rw [given] at afterCheck
    exact nomatch afterCheck
  | some path =>
    rw [given] at afterCheck
    rcases error_of_bind afterCheck with noFacts | ⟨_, _, isError⟩
    · obtain ⟨error, inFacts, rfl⟩ := exists_of_mapError noFacts
      exact Loading.not_ofReferences_of_loadFacts inFacts
    · exact nomatch isError

/-- Once references are checked, the program does not fail for them. -/
theorem not_ofReferences_of_evaluate
    (checked : Checked settings find registry)
    (failed : Program.evaluate settings find = .error failure) :
    ¬failure.cause.OfReferences := by
  rcases error_of_bind failed with unprepared | ⟨engine, prepared, noOutcomes⟩
  · exact not_ofReferences_of_prepare checked unprepared
  · obtain ⟨error, inOutcomes, rfl⟩ := exists_of_mapError noOutcomes
    have isChecked := (prepare_eq_ok_iff.1 prepared).checked
    exact not_ofReferences_of_outcomes isChecked.validated inOutcomes

/-- Under whatever settings, the program prints outcomes exactly if every stage succeeds. It prints
all of them, in an array of objects that show them one by one. Its status is then one if the
settings name a target that does not hold, and otherwise zero. If a stage fails, nothing is
printed, and the status is two; this is not for references between rules once these are
checked. -/
theorem status_tells_what_happened
    (settings : EngineSettings)
    (find : String → Except FileFault FileTree) :
    let report := Program.report settings find
    (report.output ≠ "" ↔ ∃ engine outcomes, Succeeds settings find engine outcomes) ∧
    (∀ engine outcomes, Succeeds settings find engine outcomes →
      report.output = (Json.array (outcomes.map Outcome.toJson)).pretty ++ "\n" ∧
        (∀ outcome ∈ outcomes, outcome.IsShownBy outcome.toJson) ∧ report.failure = none ∧
        (report.status = 1 ↔ TargetFails settings engine) ∧
        (report.status = 0 ↔ ¬TargetFails settings engine)) ∧
    ((¬∃ engine outcomes, Succeeds settings find engine outcomes) →
      report.output = "" ∧ report.status = 2 ∧ ∃ failure, report.failure = some failure) ∧
    ∀ registry, Checked settings find registry →
      ∀ failure, report.failure = some failure → ¬failure.cause.OfReferences := by
  intro report
  refine ⟨⟨?printed, ?succeeds⟩, ?reported, ?fails, ?checked⟩
  case printed =>
    intro isPrinted
    by_contra fails
    exact isPrinted (report_of_fails fails).1
  case succeeds =>
    rintro ⟨engine, outcomes, succeeds⟩
    exact (report_of_succeeds succeeds).1.trans_ne (printed_ne_empty outcomes)
  case reported =>
    intro engine outcomes succeeds
    obtain ⟨output, noFailure, failing, holding⟩ := report_of_succeeds succeeds
    refine ⟨output, fun outcome _ => outcome.isShownBy_toJson, noFailure,
      ⟨fun isOne => ?_, failing⟩, fun isZero fails => ?_, holding⟩
    · by_contra holds
      exact absurd (isOne.symm.trans (holding holds)) (by decide)
    · exact absurd (isZero.symm.trans (failing fails)) (by decide)
  case fails =>
    intro fails
    obtain ⟨output, status, failure, isFailure, _⟩ := report_of_fails fails
    exact ⟨output, status, failure, isFailure⟩
  case checked =>
    intro registry checked failure isFailure
    by_cases succeeds : ∃ engine outcomes, Succeeds settings find engine outcomes
    · obtain ⟨engine, outcomes, succeeds⟩ := succeeds
      obtain ⟨_, noFailure, _⟩ := report_of_succeeds succeeds
      exact nomatch isFailure.symm.trans noFailure
    · obtain ⟨_, _, found, isFound, failed⟩ := report_of_fails succeeds
      obtain rfl := Option.some.inj (isFailure.symm.trans isFound)
      exact not_ofReferences_of_evaluate checked failed

end Program
end Verdict
