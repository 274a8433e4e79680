import Verdict.Engine.Request
import Verdict.Proofs.ReferenceChain
import Verdict.Proofs.Registration

/-!
# The target of an engine

An engine is asked to do one thing after the other, and some of it fails. This module
shows that the target is the one that was chosen last, that it is a registered rule, and
that a request that fails leaves the engine as it is.

So whatever was asked before, a query of the target fails for want of one exactly if none
was chosen, and never for want of its rule.
-/

namespace Verdict

/-- An error is about the target of an engine: there is none, or there is no such rule. -/
def Error.OfTarget : Error → Prop
  | .noTargetRule => True
  | .ruleNotFound _ => True
  | _ => False

/-! ## Requests -/

namespace Engine

variable {α : Type} {engine later : Engine} {rule : Rule} {name : String} {error : Error}

theorem change_of_ok
    {changed : Engine → Except Error Engine}
    (succeeded : changed engine = .ok later) :
    change changed engine = .ok .done later :=
  bind_ofExcept_of_ok succeeded

theorem change_of_error
    {changed : Engine → Except Error Engine}
    (failed : changed engine = .error error) :
    change changed engine = .error error engine :=
  bind_ofExcept_of_error failed

/-- Asking an engine for something leaves it as it is. -/
theorem ask_cases
    (found : Engine → Except Error α)
    (reply : α → Reply)
    (engine : Engine) :
    (∃ error, ask found reply engine = .error error engine) ∨
      ∃ answer, ask found reply engine = .ok answer engine := by
  cases outcome : found engine with
  | error error => exact .inl ⟨error, bind_ofExcept_of_error outcome⟩
  | ok value => exact .inr ⟨reply value, bind_ofExcept_of_ok outcome⟩

theorem addRule_of_mem
    (taken : rule.name ∈ engine.registry.names) :
    engine.addRule rule = .error (.duplicateRule rule.name) := by
  rw [addRule, Registry.register_of_mem taken]
  rfl

theorem exists_addRule
    (isNew : rule.name ∉ engine.registry.names) :
    ∃ registry, engine.addRule rule = .ok { engine with registry } ∧
      registry.rules = engine.registry.rules ++ [rule] := by
  obtain ⟨longer, registered, extended⟩ := Registry.exists_register isNew
  refine ⟨longer, ?_, extended⟩
  rw [addRule, registered]
  rfl

theorem setTarget_of_mem
    (isRegistered : name ∈ engine.registry.names) :
    engine.setTarget name = .ok { engine with target := some name } := by
  obtain ⟨rule, found⟩ := Registry.exists_get?_of_mem isRegistered
  rw [setTarget, Registry.get_eq_ok_iff.2 found]
  rfl

theorem setTarget_of_not_mem
    (isUnknown : name ∉ engine.registry.names) :
    engine.setTarget name = .error (.ruleNotFound name) := by
  rw [setTarget, Registry.get_eq_error_iff.2 ⟨rfl, isUnknown⟩]
  rfl

/-- A rule is refused exactly if its name is taken, and then nothing changes. -/
theorem perform_addRule_eq_error_iff :
    perform (.addRule rule) engine = .error error later ↔
      rule.name ∈ engine.registry.names ∧ error = .duplicateRule rule.name ∧ later = engine := by
  by_cases taken : rule.name ∈ engine.registry.names
  · rw [perform, change_of_error (addRule_of_mem taken)]
    simp [taken, eq_comm]
  · obtain ⟨registry, added, _⟩ := exists_addRule taken
    rw [perform, change_of_ok added]
    simp [taken]

/-- A target is refused exactly if it is not registered, and then nothing changes. -/
theorem perform_setTarget_eq_error_iff :
    perform (.setTarget name) engine = .error error later ↔
      name ∉ engine.registry.names ∧ error = .ruleNotFound name ∧ later = engine := by
  by_cases isRegistered : name ∈ engine.registry.names
  · rw [perform, change_of_ok (setTarget_of_mem isRegistered)]
    simp [isRegistered]
  · rw [perform, change_of_error (setTarget_of_not_mem isRegistered)]
    simp [isRegistered, eq_comm]

/-- A request fails and leaves the engine as it is, or chooses a registered rule as the
target, or keeps the target and all registered names. -/
theorem perform_cases
    (request : Request)
    (engine : Engine) :
    (∃ error, perform request engine = .error error engine) ∨
    ∃ reply later, perform request engine = .ok reply later ∧
      ((∃ name, request = .setTarget name ∧ name ∈ engine.registry.names ∧
          later = { engine with target := some name }) ∨
        (∀ name, request ≠ .setTarget name) ∧ later.target = engine.target ∧
          engine.registry.names ⊆ later.registry.names) := by
  cases request with
  | addRule rule =>
    by_cases taken : rule.name ∈ engine.registry.names
    · exact .inl ⟨_, change_of_error (addRule_of_mem taken)⟩
    · obtain ⟨registry, added, extended⟩ := exists_addRule taken
      have kept : engine.registry.names ⊆ registry.names := by
        rw [Registry.names, Registry.names, extended, List.map_append]
        exact List.subset_append_left _ _
      exact .inr ⟨_, _, change_of_ok added, .inr ⟨by simp, rfl, kept⟩⟩
  | setTarget name =>
    by_cases isRegistered : name ∈ engine.registry.names
    · exact .inr ⟨_, _, change_of_ok (setTarget_of_mem isRegistered),
        .inl ⟨name, rfl, isRegistered, rfl⟩⟩
    · exact .inl ⟨_, change_of_error (setTarget_of_not_mem isRegistered)⟩
  | addFact | setFacts | setOptions =>
    exact .inr ⟨_, _, change_of_ok rfl, .inr ⟨by simp, rfl, List.Subset.refl _⟩⟩
  | run | evaluate | evaluateDetailed | interpret =>
    rcases ask_cases _ _ engine with failed | ⟨answer, succeeded⟩
    · exact .inl failed
    · exact .inr ⟨answer, engine, succeeded, .inr ⟨by simp, rfl, List.Subset.refl _⟩⟩

/-! ## Sessions -/

/-- The session in which an engine is asked to do one thing after the other. -/
def serve (engine : Engine) (requests : List Request) : Session Request Engine Reply :=
  Session.calls perform { state := engine } requests

/-- The target that was chosen in one call, if the call succeeded. -/
def chosen? : Request × Except Error Reply → Option String
  | (.setTarget name, .ok _) => some name
  | _ => none

theorem chosen?_eq_some_iff
    {exchange : Request × Except Error Reply} :
    chosen? exchange = some name ↔ ∃ reply, exchange = (.setTarget name, .ok reply) := by
  constructor
  · intro chosen
    unfold chosen? at chosen
    split at chosen
    · rename_i other reply
      exact ⟨reply, Option.some.inj chosen ▸ rfl⟩
    · exact nomatch chosen
  · rintro ⟨reply, rfl⟩
    rfl

theorem chosen?_eq_none_iff
    {exchange : Request × Except Error Reply} :
    chosen? exchange = none ↔ ∀ name reply, exchange ≠ (.setTarget name, .ok reply) := by
  rw [Option.eq_none_iff_forall_ne_some]
  exact forall_congr' fun _ => (not_congr chosen?_eq_some_iff).trans not_exists

variable {session : Session Request Engine Reply}

/-- The target is the one that was chosen last, and is registered. -/
structure TargetChosen (session : Session Request Engine Reply) : Prop where
  last : session.state.target = (session.log.filterMap chosen?).getLast?
  registered : ∀ name, session.state.target = some name → name ∈ session.state.registry.names

namespace TargetChosen

/-- No target was chosen on a new engine. -/
theorem new
    (noTarget : engine.target = none) :
    TargetChosen { state := engine } where
  last := noTarget
  registered := fun _ isTarget => nomatch noTarget.symm.trans isTarget

/-- Every call keeps the target that was chosen last. -/
theorem call
    (chosen : TargetChosen session)
    (request : Request) :
    TargetChosen (session.call perform request) := by
  rcases perform_cases request session.state with
    ⟨error, failed⟩ | ⟨reply, later, performed, ⟨name, rfl, isRegistered, rfl⟩ | kept⟩
  · have notChosen : chosen? (request, .error error) = none := chosen?_eq_none_iff.2 nofun
    rw [Session.call_of_error failed]
    refine ⟨?_, chosen.registered⟩
    rw [List.filterMap_append, List.filterMap_cons_none notChosen, chosen.last]
    simp
  · rw [Session.call_of_ok performed]
    refine ⟨?_, ?_⟩
    · rw [List.filterMap_append]
      exact List.getLast?_concat.symm
    · intro other isTarget
      exact Option.some.inj isTarget ▸ isRegistered
  · obtain ⟨notTarget, sameTarget, grows⟩ := kept
    have notChosen : chosen? (request, .ok reply) = none :=
      chosen?_eq_none_iff.2 fun name _ same => notTarget name (congrArg Prod.fst same)
    rw [Session.call_of_ok performed]
    refine ⟨?_, ?_⟩
    · rw [List.filterMap_append, List.filterMap_cons_none notChosen, sameTarget, chosen.last]
      simp
    · intro name isTarget
      exact grows (chosen.registered name (sameTarget.symm.trans isTarget))

/-- There is no target exactly if none was chosen. -/
theorem target_eq_none_iff
    (chosen : TargetChosen session) :
    session.state.target = none ↔ ∀ name reply, (.setTarget name, .ok reply) ∉ session.log := by
  rw [chosen.last, List.getLast?_eq_none_iff, List.filterMap_eq_nil_iff]
  simp only [chosen?_eq_none_iff]
  constructor
  · intro unchosen name reply member
    exact unchosen _ member name reply rfl
  · rintro unchosen exchange member name reply rfl
    exact unchosen name reply member

end TargetChosen

theorem targetChosen_serve
    (options : EngineOptions)
    (requests : List Request) :
    TargetChosen (serve { options } requests) :=
  Session.calls_induction (fun _ request chosen => chosen.call request) (.new rfl) requests

/-! ## Queries of the target -/

/-- An execution does not fail for want of a target. -/
theorem not_ofTarget_of_execute
    {executor : Executor}
    (failed : executor.execute rule = .error error) :
    ¬error.OfTarget := by
  intro ofTarget
  rcases Executor.blames_of_execute failed with ⟨_, comparison, _, _, inLeaf⟩ | blames
  · have ofLeaf := Leaf.error_of_matches? inLeaf
    cases error with
    | noTargetRule | ruleNotFound => exact ofLeaf
    | _ => exact ofTarget
  · cases error with
    | noTargetRule | ruleNotFound => exact blames
    | _ => exact ofTarget

/-- An explanation does not fail for want of a target. -/
theorem not_ofTarget_of_explain
    {condition : Condition}
    (failed : condition.explain = .error error) :
    ¬error.OfTarget := by
  obtain ⟨comparison, _, rfl⟩ := Condition.error_of_explain failed
  exact id

/-- An answer about the target fails for want of one exactly if a log has no choice of a
target, and it never fails for want of the rule. -/
def OfChosen (log : List (Request × Except Error Reply)) (answer : Except Error α) : Prop :=
  (answer = .error .noTargetRule ↔ ∀ name reply, (.setTarget name, .ok reply) ∉ log) ∧
    ∀ name, answer ≠ .error (.ruleNotFound name)

/-- A query that goes on from the rule of the target fails for want of one as it should,
if what it goes on with does not. -/
theorem TargetChosen.ofChosen
    (chosen : TargetChosen session)
    {next : Rule → Except Error α}
    (others : ∀ rule error, next rule = .error error → ¬error.OfTarget) :
    OfChosen session.log
      (session.state.targetName.bind fun name => (session.state.registry.get name).bind next) := by
  unfold OfChosen
  -- the log is only looked at for the target of the engine at hand
  rw [← chosen.target_eq_none_iff, targetName]
  cases isTarget : session.state.target with
  | none => exact ⟨iff_of_true rfl rfl, fun _ => nofun⟩
  | some name =>
    obtain ⟨rule, found⟩ := Registry.exists_get?_of_mem (chosen.registered name isTarget)
    change ((session.state.registry.get name).bind next = _ ↔ _) ∧
      ∀ other, (session.state.registry.get name).bind next ≠ _
    rw [Registry.get_eq_ok_iff.2 found]
    exact ⟨iff_of_false (fun failed => others rule _ failed trivial) nofun,
      fun _ failed => others rule _ failed trivial⟩

/-- Whatever was asked of a new engine before, and logged, a rule is refused exactly if its
name is taken, a target exactly if it is not registered, and either leaves the engine as it
is. The target is the one that was chosen last, and it is registered. A query of the target
fails for want of one exactly if none was chosen, and never for want of the rule. -/
theorem target_is_last_chosen
    (options : EngineOptions)
    (requests : List Request) :
    let session := serve { options } requests
    let engine := session.state
    session.log.map Prod.fst = requests ∧
    (∀ rule error later, perform (.addRule rule) engine = .error error later ↔
      rule.name ∈ engine.registry.names ∧ error = .duplicateRule rule.name ∧ later = engine) ∧
    (∀ name error later, perform (.setTarget name) engine = .error error later ↔
      name ∉ engine.registry.names ∧ error = .ruleNotFound name ∧ later = engine) ∧
    engine.target = (session.log.filterMap chosen?).getLast? ∧
    (∀ name, engine.target = some name → name ∈ engine.registry.names) ∧
    OfChosen session.log engine.evaluate ∧
    OfChosen session.log engine.evaluateDetailed ∧
    OfChosen session.log engine.interpret := by
  intro session engine
  have chosen : TargetChosen session := targetChosen_serve options requests
  refine ⟨Session.map_fst_log_calls _ _ requests, fun _ _ _ => perform_addRule_eq_error_iff,
    fun _ _ _ => perform_setTarget_eq_error_iff, chosen.last, chosen.registered, ?evaluate,
    ?evaluateDetailed, ?interpret⟩
  case evaluate =>
    refine chosen.ofChosen fun rule error failed => ?_
    rcases error_of_bind failed with inExecution | ⟨evaluation, _, failed⟩
    · exact not_ofTarget_of_execute inExecution
    · dsimp only at failed
      split at failed
      · rcases error_of_bind failed with inExplanation | ⟨_, _, isError⟩
        · exact not_ofTarget_of_explain (error_of_map inExplanation)
        · exact nomatch isError
      · exact nomatch failed
  case evaluateDetailed =>
    exact chosen.ofChosen fun rule error failed => not_ofTarget_of_execute failed
  case interpret =>
    exact chosen.ofChosen fun rule error failed => not_ofTarget_of_explain failed

end Engine
end Verdict
