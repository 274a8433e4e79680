import Verdict.Proofs.ReferenceChain

/-!
# Execution of checked rules

When the check of references succeeds, references lead to rules and close no circle.
So whatever an error could tell of references is ruled out: a circle, an unknown
name, and a chain of more distinct names than there are rules.

An execution then fails only for what a leaf asks of the facts, or because fewer
rules may be inside each other than there are.
-/

namespace Verdict
namespace Executor

variable {executor : Executor}

/-- An error of an execution is that of a leaf of a registered rule, or tells that fewer
rules may be inside each other than there are. -/
def Permits (executor : Executor) (error : Error) : Prop :=
  (∃ rule ∈ executor.registry.rules, ∃ comparison,
    rule.condition.Compares comparison ∧
      comparison.matches? executor.facts = .error error) ∨
  executor.maxDepth < executor.registry.size ∧
    ∃ depth, error = .depthExceeded depth executor.maxDepth

/-- When references are as they should be, what an error tells of them is that fewer rules
may be inside each other than there are. -/
theorem permits_of_blames
    (resolved : executor.registry.Resolved)
    (acyclic : executor.registry.Acyclic)
    {rule : Rule}
    (isRegistered : rule ∈ executor.registry.rules)
    {error : Error}
    (blames : executor.BlamesReferences rule error) :
    executor.Permits error := by
  cases error with
  | circularReference chain =>
    have circle : ClosesCircle executor.registry.Refers chain :=
      blames.imp fun _ _ => Registry.refers_of_refersFrom isRegistered
    obtain ⟨name, reaches⟩ := circle.exists_transGen
    exact absurd reaches (acyclic name)
  | depthExceeded depth limit =>
    obtain ⟨rfl, _, chain, long, distinct, _, _, known⟩ := blames
    have isName : rule.name ∈ executor.registry.names := List.mem_map_of_mem isRegistered
    have registered : chain ⊆ executor.registry.names := fun name onChain =>
      (List.mem_cons.1 (known onChain)).elim (fun same => same ▸ isName) id
    have fits := (List.subperm_of_subset distinct registered).length_le
    rw [long, Registry.names, List.length_map] at fits
    exact .inr ⟨fits, depth, rfl⟩
  | unknownRule name =>
    obtain ⟨unknown, referrer, reaches, mentions⟩ := blames
    exact absurd (resolved referrer (reaches.mem isRegistered) name mentions) unknown
  | _ => exact False.elim blames

/-- A registered rule is executed by its name. -/
theorem executeByName_of_rule_mem
    {rule : Rule}
    (isRegistered : rule ∈ executor.registry.rules) :
    executor.executeByName rule.name = executor.execute rule := by
  have found := Registry.get?_eq_some_iff.2 ⟨isRegistered, rfl⟩
  rw [executeByName, Registry.get, found]
  rfl

theorem executeByName_of_mem
    {name : String}
    (isRegistered : name ∈ executor.registry.names) :
    ∃ rule ∈ executor.registry.rules, executor.executeByName name = executor.execute rule := by
  obtain ⟨rule, member, rfl⟩ := List.mem_map.1 isRegistered
  exact ⟨rule, member, executeByName_of_rule_mem member⟩

/-- When references are as they should be, so are executions of registered rules. -/
theorem permits_of_executeByName
    (validated : executor.registry.validate = .ok ())
    {name : String}
    (isRegistered : name ∈ executor.registry.names)
    {error : Error}
    (failed : executor.executeByName name = .error error) :
    executor.Permits error := by
  obtain ⟨resolved, acyclic⟩ := Registry.validate_eq_ok_iff.1 validated
  obtain ⟨rule, member, executed⟩ := executeByName_of_mem isRegistered
  rw [executed] at failed
  rcases blames_of_execute failed with ⟨referrer, comparison, reaches, inLeaf⟩ | blames
  · exact .inl ⟨referrer, reaches.mem member, comparison, inLeaf⟩
  · exact permits_of_blames resolved acyclic member blames

/-- After a successful check no execution of a registered rule meets an unknown rule
or a circle. If as many rules as there are may be inside each other, none is too deep
either, and those succeed for which all leaves of registered rules can be compared. -/
theorem executeByName_of_validate
    (validated : executor.registry.validate = .ok ())
    {name : String}
    (isRegistered : name ∈ executor.registry.names) :
    (∀ other, executor.executeByName name ≠ .error (.unknownRule other)) ∧
    (∀ chain, executor.executeByName name ≠ .error (.circularReference chain)) ∧
    (executor.registry.size ≤ executor.maxDepth →
      ∀ depth limit, executor.executeByName name ≠ .error (.depthExceeded depth limit)) ∧
    (executor.registry.size ≤ executor.maxDepth →
      (∀ rule ∈ executor.registry.rules, ∀ comparison, rule.condition.Compares comparison →
        ∃ matched, comparison.matches? executor.facts = .ok matched) →
      ∃ evaluation, executor.executeByName name = .ok evaluation) := by
  have permits : ∀ error, executor.executeByName name = .error error → executor.Permits error :=
    fun _ failed => permits_of_executeByName validated isRegistered failed
  refine ⟨?unknown, ?circular, ?deep, ?succeeds⟩
  case unknown =>
    intro other failed
    rcases permits _ failed with ⟨_, _, comparison, _, inLeaf⟩ | ⟨_, _, tooDeep⟩
    · exact Leaf.error_of_matches? inLeaf
    · exact nomatch tooDeep
  case circular =>
    intro chain failed
    rcases permits _ failed with ⟨_, _, comparison, _, inLeaf⟩ | ⟨_, _, tooDeep⟩
    · exact Leaf.error_of_matches? inLeaf
    · exact nomatch tooDeep
  case deep =>
    intro enough depth limit failed
    rcases permits _ failed with ⟨_, _, comparison, _, inLeaf⟩ | ⟨fewer, _⟩
    · exact Leaf.error_of_matches? inLeaf
    · exact absurd fewer (Nat.not_lt.2 enough)
  case succeeds =>
    intro enough comparable
    cases executed : executor.executeByName name with
    | ok evaluation => exact ⟨evaluation, rfl⟩
    | error error =>
      rcases permits error executed with ⟨rule, member, comparison, compares, inLeaf⟩ | ⟨fewer, _⟩
      · obtain ⟨matched, compared⟩ := comparable rule member comparison compares
        exact nomatch inLeaf.symm.trans compared
      · exact absurd fewer (Nat.not_lt.2 enough)

/-- A rule that asks another one, with room for two rules inside each other. -/
def twoRules : Executor where
  registry := (Registry.empty.registerAll
    [⟨"outer", .not (.reference "inner"), {}, {}⟩,
      ⟨"inner", .leaf { fact := "count", operator := "equal", value := .null }, {}, {}⟩]).1
  facts := .empty
  maxDepth := 2

/-- There is one reference among the two rules. -/
theorem refers_twoRules
    {referrer name : String}
    (refers : twoRules.registry.Refers referrer name) :
    referrer = "outer" ∧ name = "inner" := by
  obtain ⟨rule, member, rfl, mentions⟩ := refers
  rcases List.mem_cons.1 member with rfl | member
  · cases mentions with
    | not mentions =>
      cases mentions
      exact ⟨rfl, rfl⟩
  · rw [List.mem_singleton.1 member] at mentions
    cases mentions

/-- The leaf of the two rules can be compared although there are no facts. -/
theorem comparable_twoRules :
    ∀ rule ∈ twoRules.registry.rules, ∀ comparison, rule.condition.Compares comparison →
      ∃ matched, comparison.matches? twoRules.facts = .ok matched := by
  intro rule member comparison compares
  rcases List.mem_cons.1 member with rfl | member
  · cases compares with
    | not within => cases within
  · rw [List.mem_singleton.1 member] at compares
    cases compares
    exact ⟨true, rfl⟩

theorem executeByName_twoRules :
    twoRules.registry.validate = .ok () ∧
    "outer" ∈ twoRules.registry.names ∧
    (∀ other, twoRules.executeByName "outer" ≠ .error (.unknownRule other)) ∧
    (∀ chain, twoRules.executeByName "outer" ≠ .error (.circularReference chain)) ∧
    (∀ depth limit, twoRules.executeByName "outer" ≠ .error (.depthExceeded depth limit)) ∧
    ∃ evaluation, twoRules.executeByName "outer" = .ok evaluation := by
  have resolved : twoRules.registry.Resolved := by
    intro rule member name mentions
    obtain ⟨_, rfl⟩ := refers_twoRules ⟨rule, member, rfl, mentions⟩
    decide
  have acyclic : twoRules.registry.Acyclic := by
    intro name circle
    obtain ⟨_, first, _⟩ := Relation.TransGen.head'_iff.1 circle
    obtain ⟨_, _, last⟩ := Relation.TransGen.tail'_iff.1 circle
    have differ : "outer" = "inner" := (refers_twoRules first).1.symm.trans (refers_twoRules last).2
    exact absurd differ (by decide)
  have validated := Registry.validate_eq_ok_iff.2 ⟨resolved, acyclic⟩
  have isRegistered : "outer" ∈ twoRules.registry.names := by decide
  have enough : twoRules.registry.size ≤ twoRules.maxDepth := by decide
  obtain ⟨known, straight, shallow, succeeds⟩ := executeByName_of_validate validated isRegistered
  exact ⟨validated, isRegistered, known, straight, shallow enough,
    succeeds enough comparable_twoRules⟩

end Executor
end Verdict
