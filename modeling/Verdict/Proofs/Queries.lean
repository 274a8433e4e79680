import Verdict.Proofs.ReferenceSafety
import Verdict.Proofs.Target

/-!
# Queries of an engine

An engine has four queries. One gives the full evaluation of the target, one its
explanation, one its outcome, and one the outcomes of all rules. They are put together
along separate paths, and this module shows that they agree: an outcome shows what the full
evaluation and the explanation show, as far as the options ask for it, and the outcome of a
rule among all rules is its outcome as the target.

Queries fail alike. Where both the evaluation and the explanation of the target fail, the
outcome fails as the evaluation does; where several rules fail, all outcomes fail as the
first of these rules does.
-/

namespace Verdict

/-- What an outcome shows of the evaluation of the target: the event, the rule and the
verdict, and what the options ask for. The facts are an object with all of them. -/
structure Outcome.Reports (outcome : Outcome) (engine : Engine) (evaluation : Evaluation) :
    Prop where
  event : outcome.event = evaluation.event
  rule : outcome.rule = evaluation.rule
  matched : outcome.matched = evaluation.verdict
  facts : ∀ snapshot, outcome.facts = some snapshot ↔
    engine.options.includeFacts = true ∧ Json.object engine.facts.toList = snapshot
  interpretation : ∀ text, outcome.interpretation = some text ↔
    engine.options.includeInterpretation = true ∧ engine.interpret = .ok text
  failedConditions : ∀ clauses, outcome.failedConditions = some clauses ↔
    engine.options.includeFailedConditions = true ∧ evaluation.verdict = false ∧
      evaluation.failedConditions = clauses

/-- There is one outcome at most that shows an evaluation. -/
theorem Outcome.Reports.unique
    {outcome other : Outcome}
    {engine : Engine}
    {evaluation : Evaluation}
    (reports : outcome.Reports engine evaluation)
    (otherReports : other.Reports engine evaluation) :
    outcome = other := by
  have sameFacts : outcome.facts = other.facts :=
    Option.ext fun snapshot => (reports.facts snapshot).trans (otherReports.facts snapshot).symm
  have sameInterpretation : outcome.interpretation = other.interpretation :=
    Option.ext fun text => (reports.interpretation text).trans (otherReports.interpretation text).symm
  have sameFailed : outcome.failedConditions = other.failedConditions :=
    Option.ext fun clauses =>
      (reports.failedConditions clauses).trans (otherReports.failedConditions clauses).symm
  cases outcome
  cases other
  exact (Outcome.mk.injEq ..).mpr
    ⟨reports.rule.trans otherReports.rule.symm, reports.matched.trans otherReports.matched.symm,
      reports.event.trans otherReports.event.symm, sameFacts, sameInterpretation, sameFailed⟩

namespace Engine

variable {engine : Engine} {rule : Rule} {outcome : Outcome} {error : Error}

/-! ## The outcome of the target -/

/-- The explanation of the target, if it is asked for. -/
def explanation? (engine : Engine) : Except Error (Option String) :=
  if engine.options.includeInterpretation then engine.interpret.map some else .ok none

/-- The outcome of an evaluation with an explanation, if there is one, and with the failed
conditions if they are asked for and the rule does not hold. -/
def outcomeWith (engine : Engine) (evaluation : Evaluation) (interpretation : Option String) :
    Outcome :=
  { engine.outcome evaluation with
    interpretation
    failedConditions :=
      if engine.options.includeFailedConditions && !evaluation.verdict
        then some evaluation.failedConditions else none }

theorem executeByName_eq_bind (engine : Engine) (name : String) :
    engine.executor.executeByName name =
      engine.registry.get name >>= engine.executor.execute :=
  rfl

/-- The outcome of the target is made of its evaluation and then of its explanation. -/
theorem evaluate_eq_bind (engine : Engine) :
    engine.evaluate =
      engine.evaluateDetailed.bind fun evaluation =>
        engine.explanation?.map (engine.outcomeWith evaluation) := by
  unfold evaluate evaluateDetailed explanation? interpret
  -- all queries of the target find the same name and then the same rule
  cases engine.targetName with
  | error missing => rfl
  | ok name =>
    simp only [executeByName_eq_bind, bind, Except.bind]
    cases engine.registry.get name with
    | error unknown => rfl
    | ok rule =>
      dsimp only
      cases engine.executor.execute rule with
      | error failed => rfl
      | ok evaluation =>
        dsimp only
        cases engine.options.includeInterpretation with
        | false => rfl
        | true => cases rule.condition.explain <;> rfl

/-- An explanation that is asked for is that of the target, and fails as it does. -/
theorem explanation?_eq_error_iff :
    engine.explanation? = .error error ↔
      engine.options.includeInterpretation = true ∧ engine.interpret = .error error := by
  unfold explanation?
  cases engine.options.includeInterpretation with
  | false => simp
  | true => cases engine.interpret <;> simp [Except.map]

theorem exists_explanation?_iff :
    (∃ interpretation, engine.explanation? = .ok interpretation) ↔
      engine.options.includeInterpretation = false ∨ ∃ text, engine.interpret = .ok text := by
  unfold explanation?
  cases engine.options.includeInterpretation with
  | false => simp
  | true => cases engine.interpret <;> simp [Except.map]

/-- An outcome with the explanation that is asked for shows what it should. -/
theorem reports_outcomeWith
    {interpretation : Option String}
    (explained : engine.explanation? = .ok interpretation)
    (evaluation : Evaluation) :
    (engine.outcomeWith evaluation interpretation).Reports engine evaluation where
  event := rfl
  rule := rfl
  matched := rfl
  facts := by
    intro snapshot
    simp [outcomeWith, Engine.outcome, Facts.snapshot, Json.ofDictionary, Facts.toList]
  interpretation := by
    intro text
    change interpretation = some text ↔ _
    unfold explanation? at explained
    cases included : engine.options.includeInterpretation with
    | false =>
      rw [included] at explained
      obtain rfl : none = interpretation := Except.ok.inj explained
      simp
    | true =>
      rw [included] at explained
      obtain ⟨shown, isText, rfl⟩ := exists_of_map explained
      simp [isText]
  failedConditions := by
    intro clauses
    simp [outcomeWith, and_assoc]

/-- The target has an outcome if it has an evaluation and the explanation that is asked for,
and the outcome is the one that shows these. -/
theorem evaluate_eq_ok_iff :
    engine.evaluate = .ok outcome ↔
      (engine.options.includeInterpretation = false ∨ ∃ text, engine.interpret = .ok text) ∧
        ∃ evaluation, engine.evaluateDetailed = .ok evaluation ∧
          outcome.Reports engine evaluation := by
  rw [evaluate_eq_bind, ← exists_explanation?_iff]
  constructor
  · intro evaluated
    obtain ⟨evaluation, detailed, rest⟩ := bind_eq_ok_iff.1 evaluated
    obtain ⟨interpretation, explained, rfl⟩ := exists_of_map rest
    exact ⟨⟨interpretation, explained⟩, evaluation, detailed,
      reports_outcomeWith explained evaluation⟩
  · rintro ⟨⟨interpretation, explained⟩, evaluation, detailed, reports⟩
    rw [detailed, reports.unique (reports_outcomeWith explained evaluation)]
    change engine.explanation?.map _ = _
    rw [explained]
    rfl

/-- The outcome of the target fails as its evaluation does, and otherwise as the explanation
that is asked for. -/
theorem evaluate_eq_error_iff :
    engine.evaluate = .error error ↔
      engine.evaluateDetailed = .error error ∨
        (∃ evaluation, engine.evaluateDetailed = .ok evaluation) ∧
          engine.options.includeInterpretation = true ∧ engine.interpret = .error error := by
  rw [evaluate_eq_bind, ← explanation?_eq_error_iff]
  cases engine.evaluateDetailed with
  | error failed => simp [Except.bind]
  | ok evaluation => cases engine.explanation? <;> simp [Except.bind, Except.map]

/-! ## The outcomes of all rules -/

/-- The outcome of a rule as the target, without an explanation and failed conditions. -/
def evaluateBriefly (engine : Engine) (name : String) : Except Error Outcome := do
  let chosen ← engine.setTarget name
  let brief := chosen.setOptions { chosen.options with
    includeInterpretation := false
    includeFailedConditions := false }
  brief.evaluate

/-- A registered rule comes to the same as the target and when it is executed by itself. -/
theorem evaluateBriefly_of_mem
    (isRegistered : rule ∈ engine.registry.rules) :
    engine.evaluateBriefly rule.name = (engine.executor.execute rule).map engine.outcome := by
  have named : rule.name ∈ engine.registry.names := List.mem_map_of_mem isRegistered
  have detailed : engine.executor.executeByName rule.name = engine.executor.execute rule :=
    Executor.executeByName_of_rule_mem isRegistered
  rw [evaluateBriefly, setTarget_of_mem named]
  change evaluate (setOptions { engine with target := some rule.name } _) = _
  rw [evaluate_eq_bind]
  change (engine.executor.executeByName rule.name).bind _ = _
  rw [detailed]
  cases engine.executor.execute rule <;> rfl

/-- The outcomes of all rules are those of each rule as the target. -/
theorem run_eq_mapM (engine : Engine) :
    engine.run = engine.registry.rules.mapM fun rule => engine.evaluateBriefly rule.name :=
  mapM_congr fun _ isRegistered => (evaluateBriefly_of_mem isRegistered).symm

/-- All rules have outcomes if each of them can be executed. -/
theorem exists_run_iff :
    (∃ outcomes, engine.run = .ok outcomes) ↔
      ∀ rule ∈ engine.registry.rules,
        ∃ evaluation, engine.executor.execute rule = .ok evaluation := by
  simp only [run, exists_mapM_iff, exists_map_iff]

/-- The queries of an engine agree. The target has an outcome exactly if it has an evaluation
and the explanation that is asked for, and the outcome shows both. It fails as the evaluation
does, and as the explanation does if there is an evaluation. All rules have outcomes exactly
if each of them can be executed, and these are the outcomes of each rule as the target, in the
order of the rules. All outcomes fail as the first rule does that cannot be executed. -/
theorem queries_agree (engine : Engine) :
    ((∃ outcome, engine.evaluate = .ok outcome) ↔
      (∃ evaluation, engine.evaluateDetailed = .ok evaluation) ∧
        (engine.options.includeInterpretation = false ∨
          ∃ text, engine.interpret = .ok text)) ∧
    (∀ error, engine.evaluate = .error error ↔
      engine.evaluateDetailed = .error error ∨
        (∃ evaluation, engine.evaluateDetailed = .ok evaluation) ∧
          engine.options.includeInterpretation = true ∧ engine.interpret = .error error) ∧
    (∀ outcome, engine.evaluate = .ok outcome →
      ∃ evaluation, engine.evaluateDetailed = .ok evaluation ∧
        outcome.Reports engine evaluation) ∧
    ((∃ outcomes, engine.run = .ok outcomes) ↔
      ∀ rule ∈ engine.registry.rules,
        ∃ evaluation, engine.executor.execute rule = .ok evaluation) ∧
    (∀ outcomes, engine.run = .ok outcomes ↔
      List.Forall₂ (fun rule outcome => engine.evaluateBriefly rule.name = .ok outcome)
        engine.registry.rules outcomes) ∧
    ∀ error, engine.run = .error error ↔
      ∃ before rule after, engine.registry.rules = before ++ rule :: after ∧
        (∀ earlier ∈ before, ∃ evaluation, engine.executor.execute earlier = .ok evaluation) ∧
        engine.executor.execute rule = .error error := by
  refine ⟨?succeeds, fun _ => evaluate_eq_error_iff, ?reports, exists_run_iff, ?outcomes, ?fails⟩
  case succeeds =>
    constructor
    · rintro ⟨outcome, evaluated⟩
      obtain ⟨explained, evaluation, detailed, _⟩ := evaluate_eq_ok_iff.1 evaluated
      exact ⟨⟨evaluation, detailed⟩, explained⟩
    · rintro ⟨⟨evaluation, detailed⟩, explained⟩
      obtain ⟨interpretation, isExplanation⟩ := exists_explanation?_iff.2 explained
      exact ⟨_, evaluate_eq_ok_iff.2
        ⟨explained, evaluation, detailed, reports_outcomeWith isExplanation evaluation⟩⟩
  case reports =>
    intro outcome evaluated
    exact (evaluate_eq_ok_iff.1 evaluated).2
  case outcomes =>
    intro outcomes
    rw [run_eq_mapM, mapM_eq_ok_iff]
  case fails =>
    intro error
    simp only [run, mapM_eq_error_iff, map_eq_error_iff, exists_map_iff]

end Engine
end Verdict
