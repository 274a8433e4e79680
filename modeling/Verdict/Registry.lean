import Verdict.Rule

/-!
# Registries

A registry holds rules of different names in the order in which they were
registered. The place of a rule is its index, which never changes, and by which
the registry finds a rule of a given name.

A rule refers to another one by its name alone.
-/

namespace Verdict

/-- Rules in order of registration, with the index of each name. -/
structure Registry where
  rules : List Rule
  index : Dictionary Nat
  indexed : ∀ name place,
    index.get? name = some place ↔ rules[place]?.map Rule.name = some name

namespace Registry

/-- The registry without rules. -/
def empty : Registry where
  rules := []
  index := ∅
  indexed := by
    intro name place
    exact iff_of_false nofun nofun

instance : EmptyCollection Registry :=
  ⟨empty⟩

instance : Inhabited Registry :=
  ⟨empty⟩

/-- The names of all rules, in order. -/
def names (registry : Registry) : List String :=
  registry.rules.map Rule.name

/-- The index of the rule of a name. -/
def indexOf? (registry : Registry) (name : String) : Option Nat :=
  registry.index.get? name

/-- The rule at an index. -/
def at? (registry : Registry) (place : Nat) : Option Rule :=
  registry.rules[place]?

/-- The rule of a name. -/
def get? (registry : Registry) (name : String) : Option Rule :=
  (registry.indexOf? name).bind registry.at?

/-- The rule of a name, which must be registered. -/
def get (registry : Registry) (name : String) : Except Error Rule :=
  match registry.get? name with
  | some rule => .ok rule
  | none => .error (.ruleNotFound name)

/-- Whether a name is registered. -/
def contains (registry : Registry) (name : String) : Bool :=
  registry.index.contains name

/-- The number of rules. -/
def size (registry : Registry) : Nat :=
  registry.rules.length

/-- Whether there are no rules. -/
def isEmpty (registry : Registry) : Bool :=
  registry.rules.isEmpty

theorem indexOf?_eq_some_iff
    {registry : Registry}
    {name : String}
    {place : Nat} :
    registry.indexOf? name = some place ↔
      ∃ rule, registry.rules[place]? = some rule ∧ rule.name = name :=
  (registry.indexed name place).trans Option.map_eq_some_iff

theorem lt_size_of_indexOf?
    {registry : Registry}
    {name : String}
    {place : Nat}
    (found : registry.indexOf? name = some place) :
    place < registry.size := by
  obtain ⟨rule, atPlace, _⟩ := indexOf?_eq_some_iff.1 found
  exact (List.getElem?_eq_some_iff.1 atPlace).1

/-- A rule is found by a name exactly if it is registered under it. -/
theorem get?_eq_some_iff
    {registry : Registry}
    {name : String}
    {rule : Rule} :
    registry.get? name = some rule ↔ rule ∈ registry.rules ∧ rule.name = name := by
  constructor
  · intro found
    obtain ⟨place, atIndex, atPlace⟩ := Option.bind_eq_some_iff.1 found
    obtain ⟨other, sameplace, named⟩ := indexOf?_eq_some_iff.1 atIndex
    have equal : other = rule := Option.some.inj (sameplace.symm.trans atPlace)
    exact ⟨List.mem_of_getElem? atPlace, equal ▸ named⟩
  · rintro ⟨isRegistered, named⟩
    obtain ⟨place, atPlace⟩ := List.getElem?_of_mem isRegistered
    have atIndex := indexOf?_eq_some_iff.2 ⟨rule, atPlace, named⟩
    exact Option.bind_eq_some_iff.2 ⟨place, atIndex, atPlace⟩

theorem get?_eq_none_iff
    {registry : Registry}
    {name : String} :
    registry.get? name = none ↔ name ∉ registry.names := by
  constructor
  · intro absent isRegistered
    obtain ⟨rule, member, named⟩ := List.mem_map.1 isRegistered
    have found := get?_eq_some_iff.2 ⟨member, named⟩
    exact nomatch absent.symm.trans found
  · intro unregistered
    rw [Option.eq_none_iff_forall_ne_some]
    intro rule found
    obtain ⟨member, named⟩ := get?_eq_some_iff.1 found
    exact unregistered (List.mem_map.2 ⟨rule, member, named⟩)

/-- The index stays right when a rule of a new name is added at the end. -/
theorem indexed_append
    (registry : Registry)
    {rule : Rule}
    (isNew : registry.index.get? rule.name = none)
    (name : String)
    (place : Nat) :
    (registry.index.insert rule.name registry.size).get? name = some place ↔
      (registry.rules ++ [rule])[place]?.map Rule.name = some name := by
  have known := registry.indexed name place
  rw [Dictionary.get?_insert, List.getElem?_append, size]
  by_cases before : place < registry.rules.length
  · rw [if_pos before, ← known]
    by_cases same : name = rule.name
    · subst same
      rw [if_pos rfl, isNew]
      exact iff_of_false (by simp; omega) nofun
    · rw [if_neg same]
  · have unknown : registry.index.get? name ≠ some place := by
      rw [ne_eq, known, List.getElem?_eq_none (Nat.not_lt.1 before)]
      exact nofun
    rw [if_neg before]
    cases beyond : place - registry.rules.length with
    | zero =>
      have atEnd : place = registry.rules.length := by omega
      by_cases same : name = rule.name
      · simp [same, atEnd]
      · rw [if_neg same]
        exact iff_of_false unknown (by simpa using Ne.symm same)
    | succ further =>
      have pastEnd : registry.rules.length ≠ place := by omega
      by_cases same : name = rule.name
      · simp [same, pastEnd]
      · rw [if_neg same]
        exact iff_of_false unknown (by simp)

/-- Adds a rule at the end, unless its name is taken. -/
def register (registry : Registry) (rule : Rule) : Except Error Registry :=
  if taken : registry.index.contains rule.name then .error (.duplicateRule rule.name)
  else .ok
    { rules := registry.rules ++ [rule]
      index := registry.index.insert rule.name registry.size
      indexed := registry.indexed_append (Option.not_isSome_iff_eq_none.1 taken) }

/-- Adds a rule to the registry at hand, and gives out its index. -/
def enroll (rule : Rule) : EStateM Error Registry Nat := do
  let registry ← MonadState.get
  set (← MonadExcept.ofExcept (registry.register rule))
  return registry.size

/-- Adds rules one after the other, up to the first one whose name is taken. The
rules before that one stay. -/
def registerAll (registry : Registry) : List Rule → Registry × Option Error
  | [] => (registry, none)
  | rule :: rest =>
    match registry.register rule with
    | .ok longer => longer.registerAll rest
    | .error error => (registry, some error)

end Registry

end Verdict
