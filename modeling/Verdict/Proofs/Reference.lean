import Mathlib.Data.List.Chain
import Mathlib.Logic.Relation
import Verdict.Proofs.Occurrence
import Verdict.Registry.References

/-!
# The graph of references

A rule refers to every name that occurs in a reference anywhere in its condition.
This module states what it means that all references of a registry lead to rules
and that none of them closes a circle, and relates names to the places of rules.
-/

namespace Verdict
namespace Registry

variable {registry : Registry}

/-- The registered rule of one name mentions another name. -/
def Refers (registry : Registry) (referrer name : String) : Prop :=
  ∃ rule ∈ registry.rules, rule.name = referrer ∧ rule.condition.Mentions name

/-- Every name that a registered rule mentions is registered. -/
def Resolved (registry : Registry) : Prop :=
  ∀ rule ∈ registry.rules, ∀ name, rule.condition.Mentions name → name ∈ registry.names

/-- No chain of references comes back to the rule with which it begins. -/
def Acyclic (registry : Registry) : Prop :=
  ∀ name, ¬Relation.TransGen registry.Refers name name

theorem Resolved.mem_names
    (resolved : registry.Resolved)
    {referrer name : String}
    (refers : registry.Refers referrer name) :
    name ∈ registry.names := by
  obtain ⟨rule, member, _, mentions⟩ := refers
  exact resolved rule member name mentions

/-! ## Places -/

/-- The name of the rule at a place. -/
def nameAt (registry : Registry) (place : Fin registry.size) : String :=
  (registry.ruleAt place).name

theorem ruleAt_mem (place : Fin registry.size) : registry.ruleAt place ∈ registry.rules :=
  List.get_mem registry.rules place

theorem exists_ruleAt_of_mem
    {rule : Rule}
    (member : rule ∈ registry.rules) :
    ∃ place, registry.ruleAt place = rule :=
  List.get_of_mem member

/-- A name leads to the place of the rule that has it. -/
theorem place?_eq_some_iff
    {name : String}
    {place : Fin registry.size} :
    registry.place? name = some place ↔ registry.nameAt place = name := by
  have atPlace : registry.rules[place.1]? = some (registry.ruleAt place) :=
    List.getElem?_eq_getElem place.2
  have indexed : registry.indexOf? name = some place.1 ↔ registry.nameAt place = name := by
    rw [indexOf?_eq_some_iff, atPlace]
    simp [nameAt]
  unfold place?
  split
  · rename_i index found
    rw [found] at indexed
    refine Iff.trans ?_ indexed
    simp only [Option.some_inj, Fin.ext_iff]
  · rename_i absent
    rw [← indexed, absent]
    exact iff_of_false nofun nofun

/-- Rules at different places have different names. -/
theorem nameAt_injective : Function.Injective registry.nameAt := by
  intro left right same
  have atLeft := place?_eq_some_iff.2 same
  have atRight := place?_eq_some_iff.2 (rfl : registry.nameAt right = _)
  exact Option.some.inj (atLeft.symm.trans atRight)

theorem mem_names_iff
    {name : String} :
    name ∈ registry.names ↔ ∃ place, registry.nameAt place = name := by
  rw [names, List.mem_map]
  constructor
  · rintro ⟨rule, member, named⟩
    obtain ⟨place, atPlace⟩ := exists_ruleAt_of_mem member
    exact ⟨place, (congrArg Rule.name atPlace).trans named⟩
  · rintro ⟨place, named⟩
    exact ⟨registry.ruleAt place, ruleAt_mem place, named⟩

theorem place?_eq_none_iff
    {name : String} :
    registry.place? name = none ↔ name ∉ registry.names := by
  rw [mem_names_iff, Option.eq_none_iff_forall_ne_some, not_exists]
  exact forall_congr' fun place => not_congr place?_eq_some_iff

/-- A rule refers to the names in its list of references, which belongs to one rule only. -/
theorem refers_nameAt_iff
    {place : Fin registry.size}
    {name : String} :
    registry.Refers (registry.nameAt place) name ↔
      name ∈ (registry.ruleAt place).references := by
  rw [Rule.references, Condition.mem_references_iff]
  constructor
  · rintro ⟨rule, member, named, mentions⟩
    obtain ⟨other, atOther⟩ := exists_ruleAt_of_mem member
    have same : other = place := nameAt_injective ((congrArg Rule.name atOther).trans named)
    rw [← same, atOther]
    exact mentions
  · intro mentions
    exact ⟨registry.ruleAt place, ruleAt_mem place, rfl, mentions⟩

end Registry
end Verdict
