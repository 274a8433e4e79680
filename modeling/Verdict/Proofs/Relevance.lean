import Verdict.Proofs.Registration
import Verdict.Proofs.Resemblance

/-!
# What an execution depends on

An execution depends on its surroundings only where it can name them. Facts matter if a
leaf of the executed rule, or of a rule to which references lead from it, names them. A
rule matters if a reference does; so rules that are registered later change nothing
unless a name was missing.
-/

namespace Verdict

variable {facts others : Facts}

/-! ## Other facts -/

theorem Facts.get_congr
    {name : String}
    (same : others.lookup name = facts.lookup name)
    (path : Option String) :
    others.get name path = facts.get name path := by
  unfold get
  rw [same]

/-- A comparison depends on the one fact that it names. -/
theorem Leaf.matches?_congr
    {leaf : Leaf}
    (same : others.lookup leaf.fact = facts.lookup leaf.fact) :
    leaf.matches? others = leaf.matches? facts := by
  rw [matches?, matches?, Facts.get_congr same]

namespace Executor

variable {executor : Executor} {rule : Rule}

/-- An execution comes to the same with other facts if they agree on every name that a
leaf of the executed rule, or of a rule to which references lead from it, compares. A fact
that is null agrees with one that is absent. -/
theorem execute_eq_of_lookup_eq
    (same : ∀ asked, executor.registry.Reaches rule asked →
      ∀ comparison, asked.condition.Compares comparison →
        others.lookup comparison.fact = executor.facts.lookup comparison.fact) :
    { executor with facts := others }.execute rule = executor.execute rule := by
  have resembles : executor.Resembles (fun _ => False) { executor with facts := others } rule :=
    { traced := rfl
      limited := .inl rfl
      compared := fun asked reaches comparison compares =>
        .of_eq (Leaf.matches?_congr (same asked reaches comparison compares))
      named := fun _ _ _ _ => .inl rfl }
  exact resembles.execute_persists fun _ _ => id

/-- A rule that asks another one. -/
def asking : Rule :=
  ⟨"asking", .not (.reference "asked"), {}, {}⟩

/-- A rule that compares a fact. -/
def asked : Rule :=
  ⟨"asked", .leaf { fact := "count", operator := "equal", value := .null }, {}, {}⟩

/-- A rule that compares another fact. -/
def bystander : Rule :=
  ⟨"bystander", .leaf { fact := "weight", operator := "equal", value := .null }, {}, {}⟩

/-- An executor without facts, with the rule that is asked and one that is not. -/
def askedAndBystander : Executor where
  registry := (Registry.empty.registerAll [asked, bystander]).1
  facts := .empty

/-- References lead from the asking rule to the asked one, but not to the bystander. -/
theorem eq_of_reaches_asking
    {rule : Rule}
    (reaches : askedAndBystander.registry.Reaches asking rule) :
    rule = asking ∨ rule = asked := by
  rcases reaches with isAsking | ⟨isRegistered, leads⟩
  · exact .inl isAsking
  · obtain ⟨_, _, other, stands, mentions⟩ := Relation.TransGen.tail'_iff.1 leads
    rcases Registry.eq_or_mem_of_ruleOf? stands with rfl | member
    · have named : rule.name = "asked" :=
        List.mem_singleton.1 (Condition.mem_references_iff.2 mentions)
      rcases List.mem_cons.1 isRegistered with isAsked | isRegistered
      · exact .inr isAsked
      · rw [List.mem_singleton.1 isRegistered] at named
        exact absurd named (by decide)
    · rcases List.mem_cons.1 member with rfl | member
      · cases mentions
      · rw [List.mem_singleton.1 member] at mentions
        cases mentions

theorem execute_asking_eq :
    (∀ rule, askedAndBystander.registry.Reaches asking rule →
      ∀ comparison, rule.condition.Compares comparison →
        (Facts.ofList [("count", .null), ("weight", .boolean true)]).lookup comparison.fact =
          askedAndBystander.facts.lookup comparison.fact) ∧
    { askedAndBystander with
      facts := .ofList [("count", .null), ("weight", .boolean true)] }.execute asking =
        askedAndBystander.execute asking := by
  have same : ∀ rule, askedAndBystander.registry.Reaches asking rule →
      ∀ comparison, rule.condition.Compares comparison →
        (Facts.ofList [("count", .null), ("weight", .boolean true)]).lookup comparison.fact =
          askedAndBystander.facts.lookup comparison.fact := by
    intro rule reaches comparison compares
    rcases eq_of_reaches_asking reaches with rfl | rfl
    · cases compares with
      | not within => cases within
    · cases compares
      rfl
  exact ⟨same, execute_eq_of_lookup_eq same⟩

/-! ## More rules -/

/-- An execution comes to the same whatever rules are registered afterwards, unless it
fails for a name that is unknown. -/
theorem execute_eq_of_known
    (known : ∀ name, executor.execute rule ≠ .error (.unknownRule name))
    (further : List Rule) :
    { executor with registry := (executor.registry.enrollAll further).state }.execute rule =
      executor.execute rule := by
  have resembles : executor.Resembles (fun error => ∃ name, error = .unknownRule name)
      { executor with registry := (executor.registry.enrollAll further).state } rule :=
    { traced := rfl
      limited := .inl rfl
      compared := fun _ _ _ _ => .of_eq rfl
      named := fun _ _ name _ => by
        cases found : executor.registry.get? name with
        | none => exact .inr ⟨rfl, name, rfl⟩
        | some other => exact .inl (Registry.get?_enrollAll found further) }
  refine resembles.execute_persists ?_
  rintro error failed ⟨name, rfl⟩
  exact known name failed

/-- The asking rule knows all names to which references lead from it. -/
theorem execute_asking_ne_unknownRule (name : String) :
    askedAndBystander.execute asking ≠ .error (.unknownRule name) := by
  intro failed
  obtain ⟨unknown, rule, reaches, mentions⟩ := blamesReferences_of_execute failed fun _ => id
  rcases eq_of_reaches_asking reaches with rfl | rfl
  · have named : name = "asked" := List.mem_singleton.1 (Condition.mem_references_iff.2 mentions)
    exact unknown (named ▸ by decide)
  · cases mentions

/-- A rule that holds, of the name of the asking rule. -/
def namesake : Rule :=
  { asking with condition := .all [] }

/-- The asking rule, which is not registered, comes to the same when a rule of its name is
registered after one that is refused. -/
theorem execute_asking_beside_namesake :
    (∀ name, askedAndBystander.execute asking ≠ .error (.unknownRule name)) ∧
    (askedAndBystander.registry.enrollAll [bystander, namesake]).state.names =
      ["asked", "bystander", "asking"] ∧
    { askedAndBystander with
      registry := (askedAndBystander.registry.enrollAll [bystander, namesake]).state }.execute
        asking = askedAndBystander.execute asking :=
  ⟨execute_asking_ne_unknownRule, rfl, execute_eq_of_known execute_asking_ne_unknownRule _⟩

end Executor
end Verdict
