import Mathlib.Data.List.Nodup
import Verdict.Proofs.Session
import Verdict.Registry

/-!
# Registration

Rules are registered one after the other, and a rule whose name is taken is refused.
This module shows what a registry holds after any such calls: the first rule of each
name, in the order of the calls, and each at the index that the call gave out.

The index of names is kept beside the list of rules. Both change in one call or not at
all, so neither can get ahead of the other.
-/

namespace Verdict
namespace Registry

variable {registry longer : Registry} {rule : Rule} {name : String}

/-! ## Names -/

/-- A name leads to the place at which the list of names has it. -/
theorem indexOf?_eq_some_iff_getElem?
    {place : Nat} :
    registry.indexOf? name = some place ↔ registry.names[place]? = some name := by
  rw [names, List.getElem?_map]
  exact registry.indexed name place

theorem contains_iff : registry.contains name = true ↔ name ∈ registry.names := by
  rw [contains, Dictionary.contains, Option.isSome_iff_exists, List.mem_iff_getElem?]
  exact exists_congr fun _ => indexOf?_eq_some_iff_getElem?

/-- Different places have rules of different names. -/
theorem nodup_names (registry : Registry) : registry.names.Nodup := by
  rw [List.nodup_iff_getElem?_ne_getElem?]
  intro place other before inBounds same
  have atOther := List.getElem?_eq_getElem inBounds
  have foundAtOther := indexOf?_eq_some_iff_getElem?.2 atOther
  have foundAtPlace := indexOf?_eq_some_iff_getElem?.2 (same.trans atOther)
  have samePlace := Option.some.inj (foundAtPlace.symm.trans foundAtOther)
  exact absurd samePlace (Nat.ne_of_lt before)

/-- The rule of a name is the first one of that name. -/
theorem get?_eq_find? (registry : Registry) (name : String) :
    registry.get? name = registry.rules.find? fun rule => rule.name == name := by
  cases found : registry.rules.find? fun rule => rule.name == name with
  | none =>
    have others := List.find?_eq_none.1 found
    refine get?_eq_none_iff.2 fun isRegistered => ?_
    obtain ⟨rule, member, named⟩ := List.mem_map.1 isRegistered
    exact others rule member (beq_iff_eq.2 named)
  | some rule =>
    have named := List.find?_some found
    exact get?_eq_some_iff.2 ⟨List.mem_of_find?_eq_some found, beq_iff_eq.1 named⟩

theorem exists_get?_of_mem
    (isRegistered : name ∈ registry.names) :
    ∃ rule, registry.get? name = some rule :=
  Option.ne_none_iff_exists'.1 fun absent => get?_eq_none_iff.1 absent isRegistered

theorem get_eq_ok_iff : registry.get name = .ok rule ↔ registry.get? name = some rule := by
  unfold get
  cases registry.get? name <;> simp

theorem get_eq_error_iff
    {error : Error} :
    registry.get name = .error error ↔ error = .ruleNotFound name ∧ name ∉ registry.names := by
  unfold get
  rw [← get?_eq_none_iff]
  cases registry.get? name <;> simp [eq_comm]

/-! ## One call -/

theorem register_of_mem
    (taken : rule.name ∈ registry.names) :
    registry.register rule = .error (.duplicateRule rule.name) :=
  dif_pos (contains_iff.2 taken)

theorem exists_register
    (isNew : rule.name ∉ registry.names) :
    ∃ longer, registry.register rule = .ok longer ∧ longer.rules = registry.rules ++ [rule] :=
  ⟨_, dif_neg (mt contains_iff.1 isNew), rfl⟩

/-- A rule whose name is taken is refused, and the registry stays as it is. -/
theorem enroll_of_mem
    (taken : rule.name ∈ registry.names) :
    enroll rule registry = .error (.duplicateRule rule.name) registry :=
  bind_ofExcept_of_error (register_of_mem taken)

/-- A rule of a new name is added at the end, and its index is the number of rules before. -/
theorem exists_enroll
    (isNew : rule.name ∉ registry.names) :
    ∃ longer, enroll rule registry = .ok registry.size longer ∧
      longer.rules = registry.rules ++ [rule] := by
  obtain ⟨longer, registered, extended⟩ := exists_register isNew
  exact ⟨longer, bind_ofExcept_of_ok registered, extended⟩

/-- A call is refused exactly if the name is taken, and then nothing changes. -/
theorem enroll_eq_error_iff
    {error : Error} :
    enroll rule registry = .error error longer ↔
      rule.name ∈ registry.names ∧ error = .duplicateRule rule.name ∧ longer = registry := by
  by_cases taken : rule.name ∈ registry.names
  · rw [enroll_of_mem taken]
    simp [taken, eq_comm]
  · obtain ⟨extended, enrolled, _⟩ := exists_enroll taken
    rw [enrolled]
    simp [taken]

/-- Rules of new names that differ are all registered, in order. -/
theorem exists_registerAll
    {rules : List Rule}
    (distinct : (registry.names ++ rules.map Rule.name).Nodup) :
    ∃ longer, registry.registerAll rules = (longer, none) ∧
      longer.rules = registry.rules ++ rules := by
  induction rules generalizing registry with
  | nil => exact ⟨registry, rfl, (List.append_nil _).symm⟩
  | cons rule rest inductionHypothesis =>
    have isNew : rule.name ∉ registry.names := fun taken =>
      List.disjoint_of_nodup_append distinct taken List.mem_cons_self
    obtain ⟨between, registered, extended⟩ := exists_register isNew
    have restDistinct : (between.names ++ rest.map Rule.name).Nodup := by
      simpa [names, extended] using distinct
    obtain ⟨longer, restRegistered, restExtended⟩ := inductionHypothesis restDistinct
    refine ⟨longer, ?_, ?_⟩
    · rw [registerAll, registered]
      exact restRegistered
    · rw [restExtended, extended, List.append_assoc, List.singleton_append]

/-- A new registry takes all of several rules of different names. -/
theorem exists_registerAll_empty
    {rules : List Rule}
    (distinct : (rules.map Rule.name).Nodup) :
    ∃ registry, empty.registerAll rules = (registry, none) ∧ registry.rules = rules :=
  exists_registerAll distinct

/-! ## Calls one after the other -/

/-- The session in which rules are registered one after the other. -/
def enrollAll (registry : Registry) (rules : List Rule) : Session Rule Registry Nat :=
  Session.calls enroll { state := registry } rules

/-- The rule of a call that succeeded, with the index that the call gave out. -/
def enrolled? : Rule × Except Error Nat → Option (Rule × Nat)
  | (rule, .ok place) => some (rule, place)
  | (_, .error _) => none

variable {session : Session Rule Registry Nat}

/-- A call is refused because the name is taken, or adds the rule at the end. -/
theorem call_cases
    (session : Session Rule Registry Nat)
    (rule : Rule) :
    (rule.name ∈ session.state.names ∧
      session.call enroll rule =
        ⟨session.state, session.log ++ [(rule, .error (.duplicateRule rule.name))]⟩) ∨
    (rule.name ∉ session.state.names ∧ ∃ longer : Registry,
      longer.rules = session.state.rules ++ [rule] ∧
        session.call enroll rule =
          ⟨longer, session.log ++ [(rule, .ok session.state.size)]⟩) := by
  by_cases taken : rule.name ∈ session.state.names
  · exact .inl ⟨taken, Session.call_of_error (enroll_of_mem taken)⟩
  · obtain ⟨longer, enrolled, extended⟩ := exists_enroll taken
    exact .inr ⟨taken, longer, extended, Session.call_of_ok enrolled⟩

/-- Rules that are registered stay where they are. -/
theorem rules_prefix_enrollAll
    (registry : Registry)
    (further : List Rule) :
    registry.rules <+: (registry.enrollAll further).state.rules := by
  refine Session.calls_induction
    (motive := fun session : Session Rule Registry Nat => registry.rules <+: session.state.rules)
    (fun session rule stays => ?_) (List.prefix_refl _) further
  rcases call_cases session rule with ⟨_, called⟩ | ⟨_, longer, extended, called⟩
  · rw [called]
    exact stays
  · rw [called, extended]
    exact stays.trans (List.prefix_append _ _)

/-- A name that is known leads to the same rule whatever is registered afterwards. -/
theorem get?_enrollAll
    (found : registry.get? name = some rule)
    (further : List Rule) :
    (registry.enrollAll further).state.get? name = some rule := by
  obtain ⟨isRegistered, named⟩ := get?_eq_some_iff.1 found
  exact get?_eq_some_iff.2 ⟨(rules_prefix_enrollAll registry further).mem isRegistered, named⟩

/-- What a log tells of a registry. Its rules are those of the calls that succeeded, each
at the index that was given out, and a name leads to the first rule of that name among all
calls. -/
structure Logged (session : Session Rule Registry Nat) : Prop where
  enrolled : session.log.filterMap enrolled? = session.state.rules.zipIdx
  first : ∀ name, session.state.get? name =
    (session.log.map Prod.fst).find? fun rule => rule.name == name

namespace Logged

theorem empty : Logged { state := ∅ } where
  enrolled := rfl
  first := fun _ => rfl

theorem call
    (logged : Logged session)
    (rule : Rule) :
    Logged (session.call enroll rule) := by
  rcases call_cases session rule with ⟨taken, called⟩ | ⟨isNew, longer, extended, called⟩
  · rw [called]
    refine ⟨?_, fun name => ?_⟩
    · rw [List.filterMap_append, logged.enrolled]
      exact List.append_nil _
    · rw [List.map_append, List.find?_append, ← logged.first]
      -- the refused rule is behind the one that has its name already
      by_cases named : rule.name = name
      · obtain ⟨known, found⟩ := exists_get?_of_mem (named ▸ taken)
        rw [found]
        rfl
      · simp [named]
  · rw [called]
    refine ⟨?_, fun name => ?_⟩
    · rw [List.filterMap_append, logged.enrolled, extended, List.zipIdx_append]
      simp [enrolled?, size]
    · rw [List.map_append, List.find?_append, ← logged.first, get?_eq_find?, get?_eq_find?,
        extended, List.find?_append]
      rfl

end Logged

theorem logged_enrollAll (rules : List Rule) : Logged (Registry.empty.enrollAll rules) :=
  Session.calls_induction (fun _ rule logged => logged.call rule) .empty rules

/-- An index that was given out leads to the rule to which it was given. -/
theorem Logged.at?_eq_some
    (logged : Logged session)
    {place : Nat}
    (given : (rule, .ok place) ∈ session.log) :
    session.state.at? place = some rule := by
  have enrolled : (rule, place) ∈ session.log.filterMap enrolled? :=
    List.mem_filterMap.2 ⟨_, given, rfl⟩
  rw [logged.enrolled] at enrolled
  exact List.mk_mem_zipIdx_iff_getElem?.1 enrolled

/-- A registry holds the first rule of each name, in the order of the calls. The index of
a name is the place of the rule of that name, and no two rules have the same name. The rules
are those of the calls that succeeded, each at the index that the call gave out. A name
leads to the first rule that was to be registered under it, and to an error if there is
none. A call fails exactly if the name is taken, and leaves the registry as it is. An index
that was given out denotes the same rule whatever is registered afterwards. -/
theorem holds_first_of_each_name (rules : List Rule) :
    let session := Registry.empty.enrollAll rules
    let registry := session.state
    (∀ name place, registry.indexOf? name = some place ↔
      place < registry.size ∧ (registry.at? place).map Rule.name = some name) ∧
    registry.names.Nodup ∧
    session.log.map Prod.fst = rules ∧
    session.log.filterMap enrolled? = registry.rules.zipIdx ∧
    (∀ name rule, registry.get name = .ok rule ↔
      rules.find? (fun rule => rule.name == name) = some rule) ∧
    (∀ name error, registry.get name = .error error ↔
      error = .ruleNotFound name ∧ registry.contains name = false) ∧
    (∀ rule error later, enroll rule registry = .error error later ↔
      registry.contains rule.name = true ∧ error = .duplicateRule rule.name ∧ later = registry) ∧
    (∀ rule place, (rule, .ok place) ∈ session.log →
      ∀ further, (registry.enrollAll further).state.at? place = some rule) := by
  intro session registry
  have logged : Logged session := logged_enrollAll rules
  have allCalls : session.log.map Prod.fst = rules := Session.map_fst_log_calls _ _ rules
  refine ⟨?index, nodup_names registry, allCalls, logged.enrolled, ?found, ?absent, ?refused, ?kept⟩
  case index =>
    intro name place
    constructor
    · exact fun found => ⟨lt_size_of_indexOf? found, (registry.indexed name place).1 found⟩
    · exact fun ⟨_, atPlace⟩ => (registry.indexed name place).2 atPlace
  case found =>
    intro name rule
    rw [get_eq_ok_iff, logged.first, allCalls]
  case absent =>
    intro name error
    rw [get_eq_error_iff, ← contains_iff, Bool.not_eq_true]
  case refused =>
    intro rule error later
    rw [enroll_eq_error_iff, contains_iff]
  case kept =>
    intro rule place given further
    have atPlace : registry.rules[place]? = some rule := logged.at?_eq_some given
    obtain ⟨inBounds, isRule⟩ := List.getElem?_eq_some_iff.1 atPlace
    exact isRule ▸ List.prefix_iff_getElem?.1 (rules_prefix_enrollAll registry further) _ inBounds

end Registry
end Verdict
