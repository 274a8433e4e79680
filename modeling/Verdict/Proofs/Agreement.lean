import Verdict.Proofs.Occurrence

/-!
# Agreement of visits

Two visits to a condition under different circumstances come to the same if what
they find at each leaf that the condition compares and at each name that it mentions
is the same. This module shows so with an exception: where the first visit fails for
an error that is excused, nothing is said of the second one.

An excused error ends the first visit, so it suffices that the two agree up to the
first place where one arises.
-/

namespace Verdict

variable {α β : Type}

/-- The second outcome is the first one, unless that is an error that is excused. -/
def Persists (excused : Error → Prop) (first second : Except Error α) : Prop :=
  (∀ error, first = .error error → ¬excused error) → second = first

namespace Persists

variable {excused : Error → Prop} {first second : Except Error α}

theorem of_eq (same : second = first) : Persists excused first second :=
  fun _ => same

theorem of_excused
    {error : Error}
    (isExcused : excused error) :
    Persists excused (.error error) second :=
  fun unexcused => absurd isExcused (unexcused error rfl)

/-- What is made of the outcomes persists as they do. -/
theorem map
    (persists : Persists excused first second)
    (change : α → β) :
    Persists excused (first.map change) (second.map change) := by
  intro unexcused
  have same : second = first := by
    apply persists
    intro error failed
    exact unexcused error (by rw [failed]; rfl)
  rw [same]

end Persists

namespace Condition

variable {excused : Error → Prop} {facts others : Facts}
  {follow otherFollow : String → Except Error Visit}

/-- The same clauses are visited if the visits to their conditions persist. -/
theorem visitUntil_persists
    {settling : Bool}
    {clauses : List Clause}
    (persists : ∀ clause ∈ clauses,
      Persists excused (clause.condition.visit facts follow)
        (clause.condition.visit others otherFollow)) :
    Persists excused (visitUntil facts follow settling clauses)
      (visitUntil others otherFollow settling clauses) := by
  induction clauses with
  | nil => exact .of_eq rfl
  | cons clause rest inductionHypothesis =>
    obtain ⟨firstPersists, restPersists⟩ := List.forall_mem_cons.1 persists
    intro unexcused
    cases visited : clause.condition.visit facts follow with
    | error error =>
      rw [visitUntil_of_error visited] at unexcused ⊢
      have same := firstPersists fun found failed =>
        unexcused found (congrArg _ (Except.error.inj (visited.symm.trans failed)))
      rw [visitUntil_of_error (same.trans visited)]
    | ok visit =>
      have same := (firstPersists fun _ isError => nomatch visited.symm.trans isError).trans visited
      by_cases settled : visit.verdict = settling
      · rw [visitUntil_of_settled visited settled, visitUntil_of_settled same settled]
      · rw [visitUntil_of_open visited settled] at unexcused ⊢
        rw [visitUntil_of_open same settled]
        exact (inductionHypothesis restPersists).map _ unexcused

/-- A visit to a condition persists if the comparisons of its leaves and the visits to
the rules that it mentions do. -/
theorem visit_persists
    {condition : Condition}
    (compared : ∀ comparison, condition.Compares comparison →
      Persists excused (comparison.matches? facts) (comparison.matches? others))
    (followed : ∀ name, condition.Mentions name →
      Persists excused (follow name) (otherFollow name)) :
    Persists excused (condition.visit facts follow) (condition.visit others otherFollow) := by
  induction condition with
  | leaf comparison => exact (compared comparison Within.self).map _
  | reference name => exact (followed name Within.self).map _
  | not child inductionHypothesis =>
    refine (inductionHypothesis ?_ ?_).map _
    · exact fun comparison compares => compared comparison (Within.not compares)
    · exact fun name mentions => followed name (Within.not mentions)
  | all clauses inductionHypothesis =>
    refine (visitUntil_persists fun clause member => ?_).map _
    refine inductionHypothesis clause member ?_ ?_
    · exact fun comparison compares => compared comparison (Within.all member compares)
    · exact fun name mentions => followed name (Within.all member mentions)
  | any clauses inductionHypothesis =>
    refine (visitUntil_persists fun clause member => ?_).map _
    refine inductionHypothesis clause member ?_ ?_
    · exact fun comparison compares => compared comparison (Within.any member compares)
    · exact fun name mentions => followed name (Within.any member mentions)

end Condition
end Verdict
