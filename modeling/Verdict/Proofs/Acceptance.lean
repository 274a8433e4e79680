import Verdict.Proofs.Grammar

/-!
# Which definitions are accepted

A definition describes a rule if it has a name and an event with a type, and if it says once
what decides: by a condition or by a list of decisions, neither of them empty, with
specifications that follow the grammar.

What decides is looked at first. So a definition with a specification that does not follow the
grammar is refused as an invalid condition, whatever else is missing, and any other definition
that is refused as an invalid rule.

Decisions are an abbreviation: they stand for a group of their conditions any of which must
hold, each with the name and the event of its decision.
-/

namespace Verdict

theorem Decision.exists_toClause_iff {decision : Decision} :
    (∃ clause, decision.toClause = .ok clause) ↔ decision.conditions.IsGrammatical :=
  exists_map_iff.trans ConditionSpec.exists_toCondition_iff

namespace RuleDefinition

variable {definition : RuleDefinition} {specs : List ConditionSpec} {condition : Condition}
  {error : Error}

/-! ## What decides -/

/-- A definition says what decides, by one condition or by decisions, that are not empty. The
specifications are those of the condition or of the decisions in their order. -/
inductive Decides (definition : RuleDefinition) : List ConditionSpec → Prop
  | byCondition {spec : ConditionSpec} :
    definition.conditions = some spec → definition.decisions = none →
      (∃ shape, spec.has shape = true) → Decides definition [spec]
  | byDecisions {decisions : List Decision} :
    definition.conditions = none → definition.decisions = some decisions →
      decisions ≠ [] → Decides definition (decisions.map Decision.conditions)

/-- What decides is converted if all its specifications follow the grammar, and refused as an
invalid condition otherwise. -/
theorem Decides.exists_outcome
    (decides : definition.Decides specs) :
    ∃ outcome : Except ConditionFault Condition,
      definition.toCondition = outcome.mapError .invalidCondition ∧
        ((∃ condition, outcome = .ok condition) ↔ ∀ spec ∈ specs, spec.IsGrammatical) := by
  cases decides with
  | @byCondition spec given alone notEmpty =>
    refine ⟨spec.toCondition, ?same, ?converted⟩
    case same =>
      have notEmpty : ¬spec.isEmpty = true := by
        rw [ConditionSpec.isEmpty_iff]
        simpa using notEmpty
      rw [toCondition, given, alone]
      exact if_neg notEmpty
    case converted =>
      rw [List.forall_mem_singleton]
      exact ConditionSpec.exists_toCondition_iff
  | @byDecisions decisions alone listed notEmpty =>
    refine ⟨(decisions.mapM Decision.toClause).map .any, ?same, ?converted⟩
    case same =>
      obtain ⟨decision, others, rfl⟩ := List.exists_cons_of_ne_nil notEmpty
      rw [toCondition, alone, listed]
    case converted =>
      rw [exists_map_iff, exists_mapM_iff, List.forall_mem_map]
      simp only [Decision.exists_toClause_iff]

/-- A definition that does not say what decides, or says it twice, is refused as an invalid
rule. -/
theorem exists_invalidRule_of_not_decides
    (undecided : ¬∃ specs, definition.Decides specs) :
    ∃ fault, definition.toCondition = .error (.invalidRule fault) := by
  unfold toCondition
  cases given : definition.conditions with
  | none =>
    cases listed : definition.decisions with
    | none => exact ⟨_, rfl⟩
    | some decisions =>
      cases decisions with
      | nil => exact ⟨_, rfl⟩
      | cons decision others => exact absurd ⟨_, .byDecisions given listed nofun⟩ undecided
  | some spec =>
    cases alone : definition.decisions with
    | some decisions => exact ⟨_, rfl⟩
    | none =>
      by_cases isEmpty : spec.isEmpty = true
      · exact ⟨_, if_pos isEmpty⟩
      · rw [ConditionSpec.isEmpty_iff] at isEmpty
        have notEmpty : ∃ shape, spec.has shape = true := by simpa using isEmpty
        exact absurd ⟨_, .byCondition given alone notEmpty⟩ undecided

/-- What decides is converted exactly if it is said once and follows the grammar. -/
theorem exists_toCondition_iff :
    (∃ condition, definition.toCondition = .ok condition) ↔
      ∃ specs, definition.Decides specs ∧ ∀ spec ∈ specs, spec.IsGrammatical := by
  constructor
  · rintro ⟨condition, made⟩
    by_cases decided : ∃ specs, definition.Decides specs
    · obtain ⟨specs, decides⟩ := decided
      obtain ⟨outcome, same, converted⟩ := decides.exists_outcome
      exact ⟨specs, decides, converted.1 ⟨condition, mapError_eq_ok_iff.1 (same ▸ made)⟩⟩
    · obtain ⟨fault, refused⟩ := exists_invalidRule_of_not_decides decided
      exact nomatch refused.symm.trans made
  · rintro ⟨specs, decides, grammatical⟩
    obtain ⟨outcome, same, converted⟩ := decides.exists_outcome
    obtain ⟨condition, made⟩ := converted.2 grammatical
    exact ⟨condition, same.trans (mapError_eq_ok_iff.2 made)⟩

/-- What decides is refused as an invalid condition exactly if it is said once and does not
follow the grammar. -/
theorem exists_invalidCondition_iff :
    (∃ fault, definition.toCondition = .error (.invalidCondition fault)) ↔
      ∃ specs, definition.Decides specs ∧ ∃ spec ∈ specs, ¬spec.IsGrammatical := by
  constructor
  · rintro ⟨fault, refused⟩
    by_cases decided : ∃ specs, definition.Decides specs
    · obtain ⟨specs, decides⟩ := decided
      refine ⟨specs, decides, ?_⟩
      by_contra noneUngrammatical
      push Not at noneUngrammatical
      obtain ⟨condition, made⟩ := exists_toCondition_iff.2 ⟨specs, decides, noneUngrammatical⟩
      exact nomatch refused.symm.trans made
    · obtain ⟨fault, refusedRule⟩ := exists_invalidRule_of_not_decides decided
      exact nomatch Except.error.inj (refused.symm.trans refusedRule)
  · rintro ⟨specs, decides, spec, member, ungrammatical⟩
    obtain ⟨outcome, same, converted⟩ := decides.exists_outcome
    cases isOutcome : outcome with
    | ok condition => exact absurd (converted.1 ⟨condition, isOutcome⟩ spec member) ungrammatical
    | error fault =>
      rw [isOutcome] at same
      exact ⟨fault, same⟩

/-- What decides is refused as an invalid condition or as an invalid rule. -/
theorem invalid_of_toCondition
    (refused : definition.toCondition = .error error) :
    (∃ fault, error = .invalidCondition fault) ∨ ∃ fault, error = .invalidRule fault := by
  by_cases decided : ∃ specs, definition.Decides specs
  · obtain ⟨specs, decides⟩ := decided
    obtain ⟨outcome, same, _⟩ := decides.exists_outcome
    obtain ⟨fault, _, isError⟩ := exists_of_mapError (same ▸ refused)
    exact .inl ⟨fault, isError.symm⟩
  · obtain ⟨fault, refusedRule⟩ := exists_invalidRule_of_not_decides decided
    exact .inr ⟨fault, Except.error.inj (refused.symm.trans refusedRule)⟩

/-! ## The rule -/

theorem toRule_of_toCondition_eq_error
    (refused : definition.toCondition = .error error) :
    definition.toRule = .error error := by
  rw [toRule, refused]
  rfl

/-- Once there is a condition, a definition is only refused as an invalid rule. -/
theorem invalidRule_of_toRule
    (made : definition.toCondition = .ok condition)
    (refused : definition.toRule = .error error) :
    ∃ fault, error = .invalidRule fault := by
  cases given : definition.event with
  | none =>
    rw [toRule, made, given] at refused
    exact ⟨_, (Except.error.inj refused).symm⟩
  | some event =>
    rw [toRule_of_toCondition made given] at refused
    obtain ⟨fault, _, isError⟩ := exists_of_mapError (error_of_map refused)
    exact ⟨fault, isError.symm⟩

/-- A definition gives a rule exactly if it has a name, an event with a type and a condition. -/
theorem exists_toRule_iff :
    (∃ rule, definition.toRule = .ok rule) ↔
      (∃ name, definition.name = some name ∧ name ≠ "") ∧
      (∃ event, definition.event = some event ∧ event.type ≠ "") ∧
      ∃ condition, definition.toCondition = .ok condition := by
  simp only [toRule_eq_ok_iff]
  constructor
  · rintro ⟨rule, describes⟩
    refine ⟨?named, ⟨rule.event, describes.event, describes.typed⟩, rule.condition,
      describes.condition⟩
    have named := describes.name ▸ describes.named
    cases given : definition.name with
    | none => exact absurd (by rw [given]; rfl) named
    | some name => exact ⟨name, rfl, by simpa [given] using named⟩
  · rintro ⟨⟨name, given, named⟩, ⟨event, isEvent, typed⟩, condition, made⟩
    refine ⟨⟨name, condition, event, definition.failureEvent.getD { type := name }⟩,
      ?_, made, isEvent, rfl, named, typed⟩
    rw [given]
    rfl

/-- A definition is refused as what decides is, and otherwise as an invalid rule. -/
theorem toRule_eq_error_cases
    (refused : definition.toRule = .error error) :
    definition.toCondition = .error error ∨
      (∃ condition, definition.toCondition = .ok condition) ∧
        ∃ fault, error = .invalidRule fault := by
  cases converted : definition.toCondition with
  | error found =>
    have same := (toRule_of_toCondition_eq_error converted).symm.trans refused
    exact .inl (congrArg Except.error (Except.error.inj same))
  | ok condition => exact .inr ⟨⟨condition, rfl⟩, invalidRule_of_toRule converted refused⟩

/-- A definition gives a rule exactly if it has a name, an event with a type, and says once
what decides, by specifications that follow the grammar. If it says so once, but one of the
specifications does not follow the grammar, it is refused as an invalid condition, whatever
else is missing. If it is refused otherwise, it is as an invalid rule. A rule that is given
has the name and the event of the definition and negates leaves and references only. Its
failure event is that of the definition or, if there is none, an event of the name of the rule
without parameters. -/
theorem rule_of_complete_definition (definition : RuleDefinition) :
    ((∃ rule, definition.toRule = .ok rule) ↔
      (∃ name, definition.name = some name ∧ name ≠ "") ∧
      (∃ event, definition.event = some event ∧ event.type ≠ "") ∧
      ∃ specs, definition.Decides specs ∧ ∀ spec ∈ specs, spec.IsGrammatical) ∧
    ((∃ fault, definition.toRule = .error (.invalidCondition fault)) ↔
      ∃ specs, definition.Decides specs ∧ ∃ spec ∈ specs, ¬spec.IsGrammatical) ∧
    (∀ error, definition.toRule = .error error →
      (∃ fault, error = .invalidCondition fault) ∨ ∃ fault, error = .invalidRule fault) ∧
    ∀ rule, definition.toRule = .ok rule →
      (definition.name = some rule.name ∧ rule.name ≠ "") ∧
      (definition.event = some rule.event ∧ rule.event.type ≠ "") ∧
      rule.condition.NegatesPlainly ∧
      rule.failureEvent = definition.failureEvent.getD { type := rule.name, params := ∅ } := by
  refine ⟨?accepted, ?ungrammatical, ?refused, ?made⟩
  case accepted => rw [exists_toRule_iff, exists_toCondition_iff]
  case ungrammatical =>
    rw [← exists_invalidCondition_iff]
    constructor
    · rintro ⟨fault, refused⟩
      rcases toRule_eq_error_cases refused with inCondition | ⟨_, _, isOther⟩
      · exact ⟨fault, inCondition⟩
      · exact nomatch isOther
    · rintro ⟨fault, refused⟩
      exact ⟨fault, toRule_of_toCondition_eq_error refused⟩
  case refused =>
    intro error refused
    rcases toRule_eq_error_cases refused with inCondition | ⟨_, isInvalidRule⟩
    · exact invalid_of_toCondition inCondition
    · exact .inr isInvalidRule
  case made =>
    intro rule made
    have describes := toRule_eq_ok_iff.1 made
    have wellFormed := wellFormed_of_toRule made
    obtain ⟨⟨name, given, _⟩, _⟩ := exists_toRule_iff.1 ⟨rule, made⟩
    have named : rule.name = name := by simpa [given] using describes.name
    exact ⟨⟨named ▸ given, wellFormed.named⟩, ⟨describes.event, wellFormed.typed⟩,
      wellFormed.condition.negatesPlainly, describes.failureEvent⟩

end RuleDefinition

/-! ## Decisions as one group -/

namespace Decision

/-- The specification of a decision as a clause: that of its conditions, with the name and the
event of the decision in place of any that stand there. -/
def toSpec (decision : Decision) : ConditionSpec :=
  { decision.conditions with name := some decision.name, event := some decision.event }

end Decision

namespace ConditionSpec

/-- What a specification is converted to does not depend on its name and its event. -/
theorem toCondition_relabel
    (spec : ConditionSpec)
    (name : Option String)
    (event : Option Event) :
    { spec with name, event }.toCondition = spec.toCondition := by
  obtain ⟨_, all, any, not, condition, fact, path, operator, value, _⟩ := spec
  rw [toCondition.eq_def, toCondition.eq_def]
  rfl

/-- A decision and its specification are converted to the same clause, or are refused alike. -/
theorem toClause_toSpec (decision : Decision) :
    decision.toSpec.toClause = decision.toClause := by
  rw [toClause, Decision.toSpec, toCondition_relabel, Decision.toClause]

end ConditionSpec

namespace RuleDefinition

variable {definition other : RuleDefinition}

/-- Definitions with the same name and events give the same rule, or are refused alike, if
what decides is converted alike. -/
theorem toRule_congr
    (sameName : definition.name = other.name)
    (sameEvent : definition.event = other.event)
    (sameFailureEvent : definition.failureEvent = other.failureEvent)
    (sameCondition : definition.toCondition = other.toCondition) :
    definition.toRule = other.toRule := by
  rw [toRule, toRule, sameName, sameEvent, sameFailureEvent, sameCondition]

/-- Decisions are converted like the group of their specifications any of which must hold. -/
theorem toCondition_of_decisions
    {decision : Decision}
    {others : List Decision}
    (noCondition : definition.conditions = none)
    (listed : definition.decisions = some (decision :: others))
    (noDecisions : other.decisions = none)
    (given : other.conditions =
      some { any := some ((decision :: others).map Decision.toSpec) }) :
    definition.toCondition = other.toCondition := by
  have converted : ((decision :: others).map Decision.toSpec).mapM ConditionSpec.toClause =
      (decision :: others).mapM Decision.toClause := by
    rw [List.mapM_map]
    exact mapM_congr fun decision _ => ConditionSpec.toClause_toSpec decision
  rw [toCondition, toCondition, noCondition, listed, noDecisions, given]
  dsimp only
  -- the group has the field of one shape, whatever its clauses are
  rw [ConditionSpec.toCondition_of_shapeCount rfl, ← converted]
  rfl

/-- Decisions are an abbreviation. Whatever name and events are given, valid or not, a
definition with decisions and one with the group of their specifications instead describe the
same rule, or are refused for the same reason. -/
theorem decisions_abbreviate_group
    (name : Option String)
    (event failureEvent : Option Event)
    (decision : Decision)
    (others : List Decision) :
    toRule { name, event, failureEvent, decisions := some (decision :: others) } =
      toRule {
        name, event, failureEvent
        conditions := some { any := some ((decision :: others).map Decision.toSpec) } } :=
  toRule_congr rfl rfl rfl (toCondition_of_decisions rfl rfl rfl rfl)

end RuleDefinition
end Verdict
