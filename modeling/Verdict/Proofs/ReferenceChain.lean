import Verdict.Proofs.Execution
import Verdict.Proofs.ReferenceWalk

/-!
# Chains of references in an execution

An execution enters rules one inside the other along references. The rule that is
executed stands for its own name, whether or not it is registered, and every other
name stands for its registered rule. This module shows that what an execution reports
of references is true: a circle is one, a chain that is too deep is as long as it is
said to be, and an unknown name is mentioned by a rule that was reached.

The invariant is that the stack is a chain of references between distinct names which
begins with the executed rule, and that a rule about to be entered is mentioned by the
one that was entered last.
-/

namespace Verdict

/-- A chain of names that goes along references and comes back to its first name, and to
no name twice before. -/
structure ClosesCircle (refers : String → String → Prop) (chain : List String) : Prop where
  long : 2 ≤ chain.length
  closed : chain.head? = chain.getLast?
  distinct : chain.dropLast.Nodup
  linked : chain.IsChain refers

namespace ClosesCircle

variable {refers : String → String → Prop} {first : String} {tail : List String}

/-- A chain of distinct names closes a circle when it goes on to its first name. -/
theorem of_concat
    (distinct : (first :: tail).Nodup)
    (linked : (first :: tail ++ [first]).IsChain refers) :
    ClosesCircle refers (first :: tail ++ [first]) where
  long := by simp
  closed := by rw [List.getLast?_concat, List.cons_append, List.head?_cons]
  distinct := by rwa [List.dropLast_concat]
  linked := linked

theorem imp
    {others : String → String → Prop}
    {chain : List String}
    (circle : ClosesCircle refers chain)
    (weaker : ∀ referrer name, refers referrer name → others referrer name) :
    ClosesCircle others chain :=
  { circle with linked := circle.linked.imp weaker }

/-- A name on a closed circle leads to itself. -/
theorem exists_transGen
    {chain : List String}
    (circle : ClosesCircle refers chain) :
    ∃ name, Relation.TransGen refers name name := by
  obtain ⟨long, closed, _, linked⟩ := circle
  match chain with
  | first :: second :: rest =>
    have isLast : first ∈ second :: rest := by
      rw [List.getLast?_cons_cons] at closed
      exact List.mem_of_getLast? closed.symm
    have ordered := List.isChain_iff_pairwise.1 (linked.imp fun _ _ => Relation.TransGen.single)
    exact ⟨first, (List.pairwise_cons.1 ordered).1 first isLast⟩

end ClosesCircle

namespace Registry

/-- The rule for which a name stands while a rule is executed. -/
def ruleOf? (registry : Registry) (executed : Rule) (name : String) : Option Rule :=
  if name = executed.name then some executed else registry.get? name

/-- The rule of one name mentions another name while a rule is executed. -/
def RefersFrom (registry : Registry) (executed : Rule) (referrer name : String) : Prop :=
  ∃ rule, registry.ruleOf? executed referrer = some rule ∧ rule.condition.Mentions name

/-- A rule that an execution may ask: the executed one, or a registered one to which a
chain of references leads from it. -/
def Reaches (registry : Registry) (executed rule : Rule) : Prop :=
  rule = executed ∨
    rule ∈ registry.rules ∧
      Relation.TransGen (registry.RefersFrom executed) executed.name rule.name

variable {registry : Registry} {executed rule other : Rule} {name : String}

theorem ruleOf?_self : registry.ruleOf? executed executed.name = some executed :=
  if_pos rfl

theorem ruleOf?_of_ne (different : name ≠ executed.name) :
    registry.ruleOf? executed name = registry.get? name :=
  if_neg different

/-- A rule stands for its name if it is the executed one or a registered one. -/
theorem mem_of_ruleOf?
    (stands : registry.ruleOf? executed rule.name = some rule) :
    rule.name ∈ executed.name :: registry.names := by
  by_cases same : rule.name = executed.name
  · exact same ▸ List.mem_cons_self
  · rw [ruleOf?_of_ne same] at stands
    have isRegistered := (get?_eq_some_iff.1 stands).1
    exact List.mem_cons_of_mem _ (List.mem_map_of_mem isRegistered)

/-- A rule that stands for a name is the executed one or a registered one. -/
theorem eq_or_mem_of_ruleOf?
    (stands : registry.ruleOf? executed name = some rule) :
    rule = executed ∨ rule ∈ registry.rules := by
  by_cases same : name = executed.name
  · rw [same, ruleOf?_self] at stands
    exact .inl (Option.some.inj stands).symm
  · rw [ruleOf?_of_ne same] at stands
    exact .inr (get?_eq_some_iff.1 stands).1

/-- A registered rule refers while it is executed as it does in the registry. -/
theorem refers_of_refersFrom
    {referrer : String}
    (isRegistered : executed ∈ registry.rules)
    (refers : registry.RefersFrom executed referrer name) :
    registry.Refers referrer name := by
  obtain ⟨rule, stands, mentions⟩ := refers
  by_cases same : referrer = executed.name
  · rw [same, ruleOf?_self] at stands
    exact ⟨executed, isRegistered, same.symm, Option.some.inj stands ▸ mentions⟩
  · rw [ruleOf?_of_ne same] at stands
    obtain ⟨isRule, named⟩ := get?_eq_some_iff.1 stands
    exact ⟨rule, isRule, named, mentions⟩

/-- The rules that an execution of a registered rule may ask are registered. -/
theorem Reaches.mem
    (reaches : registry.Reaches executed rule)
    (isRegistered : executed ∈ registry.rules) :
    rule ∈ registry.rules := by
  rcases reaches with rfl | ⟨isRule, _⟩
  · exact isRegistered
  · exact isRule

/-- The circles that the check of references reports are closed. -/
theorem IsCircle.closesCircle
    {chain : List String}
    (circle : registry.IsCircle chain) :
    ClosesCircle registry.Refers chain := by
  obtain ⟨first, tail, rfl, distinct, linked⟩ := circle
  exact .of_concat distinct linked

end Registry

namespace Executor

variable {executor : Executor} {executed rule other : Rule} {chain : List String}

/-- A rule is approached at the end of a chain of references from the executed rule. -/
structure Approached (executor : Executor) (executed : Rule) (chain : List String)
    (rule : Rule) : Prop where
  orderly : executor.Orderly executed.name chain
  first : (chain ++ [rule.name]).head? = some executed.name
  linked : (chain ++ [rule.name]).IsChain (executor.registry.RefersFrom executed)
  stands : rule.name ∉ chain → executor.registry.ruleOf? executed rule.name = some rule

namespace Approached

theorem start : executor.Approached executed [] executed where
  orderly := .nil
  first := rfl
  linked := List.isChain_singleton _
  stands := fun _ => Registry.ruleOf?_self

/-- The names on the chain and that of the rule are those of a longer stack. -/
theorem enter
    (approached : executor.Approached executed chain rule)
    (isNew : rule.name ∉ chain)
    (room : ¬executor.maxDepth ≤ chain.length) :
    executor.Orderly executed.name (chain ++ [rule.name]) :=
  approached.orderly.enter (Registry.mem_of_ruleOf? (approached.stands isNew)) isNew room

/-- A registered rule that is mentioned by one that was entered is approached next. -/
theorem next
    (approached : executor.Approached executed chain rule)
    (isNew : rule.name ∉ chain)
    (room : ¬executor.maxDepth ≤ chain.length)
    (found : executor.registry.get? other.name = some other)
    (mentions : rule.condition.Mentions other.name) :
    executor.Approached executed (chain ++ [rule.name]) other where
  orderly := approached.enter isNew room
  first := by
    rw [List.head?_append, approached.first]
    rfl
  linked := by
    refine approached.linked.append (List.isChain_singleton _) ?_
    intro last isLast name isName
    have isRule : rule.name = last := by simpa using isLast
    have isOther : other.name = name := Option.some.inj isName
    exact isRule ▸ isOther ▸ ⟨rule, approached.stands isNew, mentions⟩
  stands := by
    intro otherIsNew
    have onChain : executed.name ∈ chain ++ [rule.name] :=
      List.mem_of_mem_head? approached.first
    have different : other.name ≠ executed.name := fun same => otherIsNew (same ▸ onChain)
    rw [Registry.ruleOf?_of_ne different, found]

/-- A rule that is approached for the first time is one that the execution may ask. -/
theorem reaches
    (approached : executor.Approached executed chain rule)
    (isNew : rule.name ∉ chain) :
    executor.registry.Reaches executed rule := by
  have stands := approached.stands isNew
  by_cases same : rule.name = executed.name
  · rw [same, Registry.ruleOf?_self] at stands
    exact .inl (Option.some.inj stands).symm
  · rw [Registry.ruleOf?_of_ne same] at stands
    have onChain : executed.name ∈ chain := by
      have atFront := List.mem_of_mem_head? approached.first
      exact (List.mem_append.1 atFront).resolve_right fun isRule =>
        same (List.mem_singleton.1 isRule).symm
    have linked := approached.linked.imp fun _ _ refers => Relation.TransGen.single refers
    have ordered := (List.pairwise_append.1 (List.isChain_iff_pairwise.1 linked)).2.2
    exact .inr ⟨(Registry.get?_eq_some_iff.1 stands).1,
      ordered _ onChain _ (List.mem_singleton_self _)⟩

/-- Coming back to a rule on the chain closes a circle. -/
theorem closesCircle
    (approached : executor.Approached executed chain rule)
    (entered : rule.name ∈ chain) :
    ClosesCircle (executor.registry.RefersFrom executed)
      (chain.dropWhile (· != rule.name) ++ [rule.name]) := by
  obtain ⟨early, tail, split, notEarly⟩ := List.eq_append_cons_of_mem entered
  have dropped : chain.dropWhile (· != rule.name) = rule.name :: tail := by
    have skipped : ∀ name ∈ early, (name != rule.name) = true := by
      intro name isEarly
      exact bne_iff_ne.2 fun same => notEarly (same ▸ isEarly)
    rw [split, List.dropWhile_append_of_pos skipped, List.dropWhile_cons_of_neg (by simp)]
  have isSuffix : rule.name :: tail <:+ chain := ⟨early, split.symm⟩
  rw [dropped]
  refine .of_concat (approached.orderly.distinct.sublist isSuffix.sublist) ?_
  exact approached.linked.suffix ⟨early, by rw [split, List.append_assoc]⟩

end Approached

/-! ## What errors tell -/

/-- What an error of an execution tells of references. -/
def BlamesReferences (executor : Executor) (executed : Rule) : Error → Prop
  | .circularReference chain => ClosesCircle (executor.registry.RefersFrom executed) chain
  | .depthExceeded depth limit =>
    limit = executor.maxDepth ∧ depth = limit + 1 ∧
      ∃ chain : List String,
        chain.length = limit + 1 ∧ chain.Nodup ∧ chain.head? = some executed.name ∧
          chain.IsChain (executor.registry.RefersFrom executed) ∧
          chain ⊆ executed.name :: executor.registry.names
  | .unknownRule name =>
    name ∉ executor.registry.names ∧
      ∃ rule, executor.registry.Reaches executed rule ∧ rule.condition.Mentions name
  | _ => False

/-- An error of an execution is that of a leaf of a rule that the execution may ask. -/
def FailsAtLeaf (executor : Executor) (executed : Rule) (error : Error) : Prop :=
  ∃ rule comparison, executor.registry.Reaches executed rule ∧
    rule.condition.Compares comparison ∧ comparison.matches? executor.facts = .error error

/-- The names on a full chain and that of the rule that has no room on it tell how deep
references go. -/
theorem Approached.blames_of_full
    (approached : executor.Approached executed chain rule)
    (isNew : rule.name ∉ chain)
    (full : executor.maxDepth ≤ chain.length) :
    executor.BlamesReferences executed (.depthExceeded (chain.length + 1) executor.maxDepth) := by
  have exact : chain.length = executor.maxDepth := le_antisymm approached.orderly.fits full
  refine ⟨rfl, by rw [exact], chain ++ [rule.name], ?_, ?_, approached.first, approached.linked, ?_⟩
  · rw [List.length_append, List.length_singleton, exact]
  · rw [← List.concat_eq_append]
    exact List.Nodup.concat isNew approached.orderly.distinct
  · have known := Registry.mem_of_ruleOf? (approached.stands isNew)
    exact List.append_subset.2
      ⟨approached.orderly.known, List.cons_subset.2 ⟨known, List.nil_subset _⟩⟩

/-- A visit to a rule that is approached fails at a leaf, or its error tells of references. -/
theorem blames_of_visitFrom
    (approached : executor.Approached executed chain rule)
    {error : Error}
    (failed : executor.visitFrom chain rule = .error error) :
    executor.FailsAtLeaf executed error ∨ executor.BlamesReferences executed error := by
  -- the recursion keeps `Approached`, from which each of the three errors is read off
  induction chain, rule using visitFrom.induct executor with
  | case1 chain rule entered =>
    rw [visitFrom, if_pos entered] at failed
    exact .inr (Except.error.inj failed ▸ approached.closesCircle entered)
  | case2 chain rule isNew full =>
    rw [visitFrom, if_neg isNew, if_pos full] at failed
    exact .inr (Except.error.inj failed ▸ approached.blames_of_full isNew full)
  | case3 chain rule isNew room inductionHypothesis =>
    rw [visitFrom, if_neg isNew, if_neg room] at failed
    have reached := approached.reaches isNew
    rcases Condition.error_of_visit failed with ⟨comparison, compares, inLeaf⟩ | inReference
    · exact .inl ⟨rule, comparison, reached, compares, inLeaf⟩
    · obtain ⟨name, mentions, followed⟩ := inReference
      cases found : executor.registry.get? name with
      | none =>
        rw [Registry.follow, found] at followed
        rw [← Except.error.inj followed]
        exact .inr ⟨Registry.get?_eq_none_iff.1 found, rule, reached, mentions⟩
      | some other =>
        rw [Registry.follow, found] at followed
        obtain ⟨_, rfl⟩ := Registry.get?_eq_some_iff.1 found
        exact inductionHypothesis other (approached.next isNew room found mentions) followed

/-- An execution fails at a leaf, or its error tells of references. -/
theorem blames_of_execute
    {error : Error}
    (failed : executor.execute rule = .error error) :
    executor.FailsAtLeaf rule error ∨ executor.BlamesReferences rule error := by
  rw [execute_eq_visit] at failed
  exact blames_of_visitFrom .start (error_of_map failed)

/-- Errors of references do not arise at leaves, so they tell of references. -/
theorem blamesReferences_of_execute
    {error : Error}
    (failed : executor.execute rule = .error error)
    (notOfLeaf : ∀ comparison, ¬error.OfLeaf comparison) :
    executor.BlamesReferences rule error := by
  refine (blames_of_execute failed).resolve_left ?_
  rintro ⟨_, comparison, _, _, inLeaf⟩
  exact notOfLeaf comparison (Leaf.error_of_matches? inLeaf)

/-- What errors tell of references is true. A circle that an execution or the check of
references reports goes along references through distinct names back to the first one.
An execution that goes too deep is one step beyond its limit, at the end of a chain of
references between distinct names of rules that begins with the executed rule. An unknown name is
not registered, and is mentioned by the executed rule or by one to which references lead
from it. -/
theorem reference_errors_are_true
    (executor : Executor)
    (rule : Rule) :
    (∀ chain, executor.execute rule = .error (.circularReference chain) →
      ClosesCircle (executor.registry.RefersFrom rule) chain) ∧
    (∀ chain, executor.registry.validate = .error (.circularReference chain) →
      ClosesCircle executor.registry.Refers chain) ∧
    (∀ depth limit, executor.execute rule = .error (.depthExceeded depth limit) →
      limit = executor.maxDepth ∧ depth = limit + 1 ∧
        ∃ chain : List String,
          chain.length = limit + 1 ∧ chain.Nodup ∧ chain.head? = some rule.name ∧
            chain.IsChain (executor.registry.RefersFrom rule) ∧
            chain ⊆ rule.name :: executor.registry.names) ∧
    (∀ name, executor.execute rule = .error (.unknownRule name) →
      name ∉ executor.registry.names ∧
        ∃ referrer, executor.registry.Reaches rule referrer ∧
          referrer.condition.Mentions name) := by
  refine ⟨?circular, ?checked, ?deep, ?unknown⟩
  case circular =>
    intro chain failed
    exact blamesReferences_of_execute failed fun _ => id
  case checked =>
    intro chain failed
    have circle : executor.registry.IsCircle chain := Registry.blamed_of_validate failed
    exact circle.closesCircle
  case deep =>
    intro depth limit failed
    exact blamesReferences_of_execute failed fun _ => id
  case unknown =>
    intro name failed
    exact blamesReferences_of_execute failed fun _ => id

end Executor
end Verdict
