import Verdict.Proofs.Queries
import Verdict.Proofs.Relevance

/-!
# The order of registration

A registry keeps its rules in the order in which they were registered, and the check of
references and the evaluation of all rules go through them in this order. This module shows
that nothing else depends on it. Whether the check succeeds depends on which rules there are,
and so does what a name leads to, and by that every execution; evaluations of all rules have
the same outcomes, in the order of the rules.

The check marks the rules that it has seen, so what it does with a rule does depend on the
rules before it. It is by what its success means that it does not depend on their order.
-/

namespace Verdict

/-! ## Registries with the same rules -/

namespace Registry

variable {registry other : Registry}

/-- Names lead to the same rules in registries with the same rules. -/
theorem get?_congr
    (same : ∀ rule, rule ∈ other.rules ↔ rule ∈ registry.rules)
    (name : String) :
    other.get? name = registry.get? name := by
  ext rule
  simp only [get?_eq_some_iff, same]

theorem get_congr
    (same : ∀ name, other.get? name = registry.get? name)
    (name : String) :
    other.get name = registry.get name := by
  unfold get
  rw [same]

/-- References are as they should be in both of two registries with the same rules, or in
neither of them. -/
theorem validate_congr
    (same : ∀ rule, rule ∈ other.rules ↔ rule ∈ registry.rules) :
    other.validate = .ok () ↔ registry.validate = .ok () := by
  have sameNames : ∀ name, name ∈ other.names ↔ name ∈ registry.names := by
    intro name
    simp only [names, List.mem_map, same]
  have sameReferences : other.Refers = registry.Refers := by
    funext referrer name
    simp only [Refers, same]
  simp only [validate_eq_ok_iff, Resolved, Acyclic, same, sameNames, sameReferences]

end Registry

namespace Executor

variable (executor : Executor) {other : Registry}

/-- An execution comes to the same with another registry in which names lead to the same
rules. -/
theorem execute_congr
    (same : ∀ name, other.get? name = executor.registry.get? name)
    (rule : Rule) :
    { executor with registry := other }.execute rule = executor.execute rule := by
  have resembles : executor.Resembles (fun _ => False) { executor with registry := other } rule :=
    { traced := rfl
      limited := .inl rfl
      compared := fun _ _ _ _ => .of_eq rfl
      named := fun _ _ name _ => .inl (same name) }
  exact resembles.execute_persists fun _ _ => id

theorem executeByName_congr
    (same : ∀ name, other.get? name = executor.registry.get? name)
    (name : String) :
    { executor with registry := other }.executeByName name = executor.executeByName name := by
  have executed := funext (execute_congr executor same)
  unfold executeByName
  dsimp only
  rw [Registry.get_congr same, executed]

end Executor

namespace Engine

variable (engine : Engine) {other : Registry}

/-- The outcome that a rule has when all rules are evaluated, or any one if it has none. -/
def outcomeOf (rule : Rule) : Outcome :=
  ((engine.executor.execute rule).map engine.outcome).toOption.getD
    ⟨rule.name, false, rule.failureEvent, none, none, none⟩

/-- The outcomes of all rules are the outcome of each of them, in the order of the rules. -/
theorem eq_map_of_run
    {outcomes : List Outcome}
    (ran : engine.run = .ok outcomes) :
    outcomes = engine.registry.rules.map engine.outcomeOf := by
  refine eq_map_of_mapM (fun rule outcome executed => ?_) ran
  rw [outcomeOf, executed]
  rfl

/-- A rule has the same outcome with another registry in which names lead to the same rules. -/
theorem outcomeOf_congr
    (same : ∀ name, other.get? name = engine.registry.get? name) :
    { engine with registry := other }.outcomeOf = engine.outcomeOf := by
  funext rule
  have executed : { engine with registry := other }.executor.execute rule =
      engine.executor.execute rule :=
    Executor.execute_congr engine.executor same rule
  unfold outcomeOf
  rw [executed]
  rfl

/-- All rules have outcomes in both of two registries with the same rules, or in neither of
them. -/
theorem exists_run_congr
    (same : ∀ rule, rule ∈ other.rules ↔ rule ∈ engine.registry.rules) :
    (∃ outcomes, { engine with registry := other }.run = .ok outcomes) ↔
      ∃ outcomes, engine.run = .ok outcomes := by
  have executed : ∀ rule, { engine with registry := other }.executor.execute rule =
      engine.executor.execute rule :=
    Executor.execute_congr engine.executor (Registry.get?_congr same)
  simp only [exists_run_iff, same, executed]

end Engine

/-! ## Another order -/

namespace Registry

/-- The order in which rules of different names are registered makes no difference. All of
them are registered in any order. Whatever the facts and the limit are, a name leads to the
same result, and the check of references succeeds for both orders or for neither. So does the
evaluation of all rules, and each rule has the same outcome in both. -/
theorem order_makes_no_difference
    {rules others : List Rule}
    (distinct : (rules.map Rule.name).Nodup)
    (permuted : rules.Perm others) :
    ∃ registry other : Registry,
      Registry.empty.registerAll rules = (registry, none) ∧ registry.rules = rules ∧
      Registry.empty.registerAll others = (other, none) ∧ other.rules = others ∧
      (∀ (executor : Executor) (name : String),
        { executor with registry := other }.executeByName name =
          { executor with registry }.executeByName name) ∧
      (other.validate = .ok () ↔ registry.validate = .ok ()) ∧
      ∀ engine : Engine,
        ((∃ outcomes, { engine with registry := other }.run = .ok outcomes) ↔
          ∃ outcomes, { engine with registry }.run = .ok outcomes) ∧
        ∀ outcomes otherOutcomes,
          { engine with registry }.run = .ok outcomes →
          { engine with registry := other }.run = .ok otherOutcomes →
          ∃ outcomeOf : Rule → Outcome,
            outcomes = rules.map outcomeOf ∧ otherOutcomes = others.map outcomeOf := by
  have othersDistinct : (others.map Rule.name).Nodup := (permuted.map Rule.name).nodup distinct
  obtain ⟨registry, registered, sameRules⟩ := exists_registerAll_empty distinct
  obtain ⟨other, otherRegistered, sameOthers⟩ := exists_registerAll_empty othersDistinct
  have same : ∀ rule, rule ∈ other.rules ↔ rule ∈ registry.rules := by
    intro rule
    rw [sameRules, sameOthers]
    exact permuted.symm.mem_iff
  refine ⟨registry, other, registered, sameRules, otherRegistered, sameOthers, ?named,
    validate_congr same, fun engine => ⟨?runs, ?outcomes⟩⟩
  case named =>
    intro executor name
    exact Executor.executeByName_congr { executor with registry } (get?_congr same) name
  case runs =>
    exact Engine.exists_run_congr { engine with registry } same
  case outcomes =>
    intro outcomes otherOutcomes ran otherRan
    refine ⟨{ engine with registry }.outcomeOf, ?_, ?_⟩
    · rw [Engine.eq_map_of_run _ ran, sameRules]
    · have sameOutcomes :=
        Engine.outcomeOf_congr { engine with registry } (get?_congr same)
      rw [Engine.eq_map_of_run _ otherRan, sameOthers, ← sameOutcomes]

/-- A rule that asks another one and the rule that it asks have the same outcomes in both
orders. -/
theorem order_of_asking_and_asked :
    ([Executor.asking, Executor.asked].map Rule.name).Nodup ∧
    [Executor.asking, Executor.asked].Perm [Executor.asked, Executor.asking] ∧
    ∃ registry other : Registry,
      Registry.empty.registerAll [Executor.asking, Executor.asked] = (registry, none) ∧
      Registry.empty.registerAll [Executor.asked, Executor.asking] = (other, none) ∧
      ∃ outcomes otherOutcomes,
        Engine.run { registry } = .ok outcomes ∧
        Engine.run { registry := other } = .ok otherOutcomes ∧
        outcomes.map Outcome.matched = [false, true] ∧
        ∃ outcomeOf : Rule → Outcome,
          outcomes = [outcomeOf Executor.asking, outcomeOf Executor.asked] ∧
            otherOutcomes = [outcomeOf Executor.asked, outcomeOf Executor.asking] := by
  have distinct : ([Executor.asking, Executor.asked].map Rule.name).Nodup := by decide
  have permuted : [Executor.asking, Executor.asked].Perm [Executor.asked, Executor.asking] :=
    .swap _ _ _
  obtain ⟨registry, other, registered, _, otherRegistered, _, _, _, runs⟩ :=
    order_makes_no_difference distinct permuted
  refine ⟨distinct, permuted, registry, other, registered, otherRegistered, ?_⟩
  have shown : (Engine.run { registry }).map (List.map Outcome.matched) = .ok [false, true] := by
    obtain rfl : (empty.registerAll [Executor.asking, Executor.asked]).1 = registry :=
      congrArg Prod.fst registered
    rfl
  obtain ⟨outcomes, ran, matched⟩ := exists_of_map shown
  obtain ⟨alike, sameOutcomes⟩ := runs {}
  obtain ⟨otherOutcomes, otherRan⟩ := alike.2 ⟨outcomes, ran⟩
  exact ⟨outcomes, otherOutcomes, ran, otherRan, matched,
    sameOutcomes outcomes otherOutcomes ran otherRan⟩

end Registry
end Verdict
