import Mathlib.Data.List.Forall2

/-!
# Fallible steps

A step comes to a value or to an error. This module says what a step that is made from
others comes to: a step that changes a value, two steps one after the other, and one step
for each item of a list, where the first item that fails decides the error.
-/

namespace Verdict

variable {ε δ α β γ : Type} {outcome : Except ε α} {change : α → β} {error : ε}

/-! ## One step after another -/

theorem error_of_map
    (failed : outcome.map change = .error error) :
    outcome = .error error := by
  cases outcome with
  | error found => exact congrArg Except.error (Except.error.inj failed)
  | ok value => exact nomatch failed

theorem map_eq_error_iff : outcome.map change = .error error ↔ outcome = .error error :=
  ⟨error_of_map, fun failed => failed ▸ rfl⟩

theorem exists_of_map
    {changed : β}
    (succeeded : outcome.map change = .ok changed) :
    ∃ value, outcome = .ok value ∧ change value = changed := by
  cases outcome with
  | error found => exact nomatch succeeded
  | ok value => exact ⟨value, rfl, Except.ok.inj succeeded⟩

theorem exists_map_iff :
    (∃ changed, outcome.map change = .ok changed) ↔ ∃ value, outcome = .ok value := by
  cases outcome <;> simp [Except.map]

theorem error_of_bind
    {next : α → Except ε β}
    (failed : outcome.bind next = .error error) :
    outcome = .error error ∨ ∃ value, outcome = .ok value ∧ next value = .error error := by
  cases outcome with
  | error found => exact .inl (congrArg Except.error (Except.error.inj failed))
  | ok value => exact .inr ⟨value, rfl, failed⟩

/-- What follows a step that succeeds decides the error. -/
theorem error_of_bind_of_ok
    {next : α → Except ε β}
    {value : α}
    (succeeded : outcome = .ok value)
    (failed : outcome.bind next = .error error) :
    next value = .error error := by
  rw [succeeded] at failed
  exact failed

theorem mapError_eq_ok_iff
    {change : ε → δ}
    {value : α} :
    outcome.mapError change = .ok value ↔ outcome = .ok value := by
  cases outcome with
  | error found => exact ⟨nofun, nofun⟩
  | ok found => exact ⟨fun same => Except.ok.inj same ▸ rfl, fun same => Except.ok.inj same ▸ rfl⟩

theorem exists_of_mapError
    {change : ε → δ}
    {changed : δ}
    (failed : outcome.mapError change = .error changed) :
    ∃ error, outcome = .error error ∧ change error = changed := by
  cases outcome with
  | error found => exact ⟨found, rfl, Except.error.inj failed⟩
  | ok found => exact nomatch failed

theorem bind_eq_ok_iff
    {next : α → Except ε β}
    {result : β} :
    outcome >>= next = .ok result ↔ ∃ value, outcome = .ok value ∧ next value = .ok result := by
  cases outcome with
  | error found => exact ⟨nofun, fun ⟨_, same, _⟩ => nomatch same⟩
  | ok found =>
    constructor
    · exact fun same => ⟨found, rfl, same⟩
    · rintro ⟨value, same, nextSame⟩
      rw [Except.ok.inj same]
      exact nextSame

/-! ## Two steps alike -/

theorem map_map
    (outcome : Except ε α)
    (change : α → β)
    (further : β → γ) :
    (outcome.map change).map further = outcome.map (further ∘ change) := by
  cases outcome <;> rfl

/-- Outcomes that are changed to the same one are the same error or two values. -/
theorem cases_of_map_eq
    {other : Except ε γ}
    {further : γ → β}
    (same : other.map further = outcome.map change) :
    (∃ error, outcome = .error error ∧ other = .error error) ∨
      ∃ value otherValue, outcome = .ok value ∧ other = .ok otherValue ∧
        further otherValue = change value := by
  cases outcome with
  | error error => exact .inl ⟨error, rfl, error_of_map same⟩
  | ok value =>
    obtain ⟨otherValue, isOther, changed⟩ := exists_of_map same
    exact .inr ⟨value, otherValue, rfl, isOther, changed⟩

/-- What can be read off changed values is the same for outcomes that are changed to the same
one. -/
theorem map_eq_map_of_factors
    {other : Except ε α}
    {read : α → γ}
    (factors : ∀ value other, change other = change value → read other = read value)
    (same : other.map change = outcome.map change) :
    other.map read = outcome.map read := by
  obtain ⟨error, rfl, rfl⟩ | ⟨value, otherValue, rfl, rfl, changed⟩ := cases_of_map_eq same
  · rfl
  · exact congrArg Except.ok (factors value otherValue changed)

/-! ## One step for each item -/

section

variable {convert : α → Except ε β} {items : List α} {results : List β}

/-- A list is converted when each of its items is. -/
theorem mapM_eq_ok_iff :
    items.mapM convert = .ok results ↔
      List.Forall₂ (fun item result => convert item = .ok result) items results := by
  induction items generalizing results with
  | nil =>
    rw [List.mapM_nil, List.forall₂_nil_left_iff]
    exact ⟨fun same => (Except.ok.inj same).symm, fun same => congrArg _ same.symm⟩
  | cons item rest inductionHypothesis =>
    rw [List.mapM_cons, List.forall₂_cons_left_iff, bind_eq_ok_iff]
    constructor
    · rintro ⟨result, first, converted⟩
      obtain ⟨others, convertedRest, same⟩ := bind_eq_ok_iff.1 converted
      exact ⟨result, others, first, inductionHypothesis.1 convertedRest,
        (Except.ok.inj same).symm⟩
    · rintro ⟨result, others, first, convertedRest, rfl⟩
      exact ⟨result, first, bind_eq_ok_iff.2 ⟨others, inductionHypothesis.2 convertedRest, rfl⟩⟩

/-- Conversions that agree on the items of a list agree on the list. -/
theorem mapM_congr
    {other : α → Except ε β}
    (same : ∀ item ∈ items, convert item = other item) :
    items.mapM convert = items.mapM other := by
  induction items with
  | nil => rfl
  | cons item rest inductionHypothesis =>
    obtain ⟨sameFirst, sameRest⟩ := List.forall_mem_cons.1 same
    rw [List.mapM_cons, List.mapM_cons, sameFirst, inductionHypothesis sameRest]

/-- Two conversions of a list come to the same if they do so for its items. -/
theorem mapM_map_congr
    {other : α → Except ε γ}
    {change : β → δ}
    {further : γ → δ}
    (same : ∀ item ∈ items, (other item).map further = (convert item).map change) :
    (items.mapM other).map (List.map further) = (items.mapM convert).map (List.map change) := by
  induction items with
  | nil => rfl
  | cons item rest inductionHypothesis =>
    obtain ⟨sameFirst, sameRest⟩ := List.forall_mem_cons.1 same
    rw [List.mapM_cons, List.mapM_cons]
    obtain ⟨error, failed, otherFailed⟩ | ⟨value, otherValue, isValue, isOther, changed⟩ :=
      cases_of_map_eq sameFirst
    · rw [failed, otherFailed]
      rfl
    · rw [isValue, isOther]
      obtain ⟨error, failed, otherFailed⟩ |
          ⟨values, otherValues, areValues, areOthers, areChanged⟩ :=
        cases_of_map_eq (inductionHypothesis sameRest)
      · rw [failed, otherFailed]
        rfl
      · rw [areValues, areOthers]
        exact congrArg Except.ok (congrArg₂ List.cons changed areChanged)

/-- A list is converted to the values of its items, if the conversion gives each its value. -/
theorem eq_map_of_mapM
    {value : α → β}
    (gives : ∀ item result, convert item = .ok result → value item = result)
    (converted : items.mapM convert = .ok results) :
    results = items.map value := by
  have related := (mapM_eq_ok_iff.1 converted).imp gives
  rw [← List.forall₂_map_left_iff, List.forall₂_eq_eq_eq] at related
  exact related.symm

/-- The error of a list is that of its first item that cannot be converted. -/
theorem mapM_eq_error_iff :
    items.mapM convert = .error error ↔
      ∃ before item after, items = before ++ item :: after ∧
        (∀ earlier ∈ before, ∃ result, convert earlier = .ok result) ∧
        convert item = .error error := by
  induction items with
  | nil => simp [pure, Except.pure]
  | cons first rest inductionHypothesis =>
    rw [List.mapM_cons]
    constructor
    · intro failed
      rcases error_of_bind failed with inFirst | ⟨result, converted, failed⟩
      · exact ⟨[], first, rest, rfl, nofun, inFirst⟩
      · rcases error_of_bind failed with inRest | ⟨_, _, isError⟩
        · obtain ⟨before, item, after, rfl, areConverted, inItem⟩ := inductionHypothesis.1 inRest
          exact ⟨first :: before, item, after, rfl,
            List.forall_mem_cons.2 ⟨⟨result, converted⟩, areConverted⟩, inItem⟩
        · exact nomatch isError
    · rintro ⟨before, item, after, split, areConverted, inItem⟩
      cases before with
      | nil =>
        obtain ⟨rfl, rfl⟩ := List.cons.inj split
        rw [inItem]
        rfl
      | cons earlier before =>
        obtain ⟨rfl, rfl⟩ := List.cons.inj split
        obtain ⟨⟨result, converted⟩, restConverted⟩ := List.forall_mem_cons.1 areConverted
        rw [converted, inductionHypothesis.2 ⟨before, item, after, rfl, restConverted, inItem⟩]
        rfl

/-- A list can be converted when each of its items can. -/
theorem exists_mapM_iff :
    (∃ results, items.mapM convert = .ok results) ↔
      ∀ item ∈ items, ∃ result, convert item = .ok result := by
  constructor
  · rintro ⟨results, converted⟩ item member
    have related := mapM_eq_ok_iff.1 converted
    induction related with
    | nil => exact nomatch member
    | @cons first result _ _ ofFirst related inductionHypothesis =>
      rcases List.mem_cons.1 member with rfl | inRest
      · exact ⟨result, ofFirst⟩
      · exact inductionHypothesis (mapM_eq_ok_iff.2 related) inRest
  · intro convertible
    cases converted : items.mapM convert with
    | ok results => exact ⟨results, rfl⟩
    | error error =>
      -- the item that fails could be converted after all
      obtain ⟨before, item, after, rfl, _, inItem⟩ := mapM_eq_error_iff.1 converted
      obtain ⟨result, isResult⟩ :=
        convertible item (List.mem_append_right before List.mem_cons_self)
      exact nomatch inItem.symm.trans isResult

end

end Verdict
