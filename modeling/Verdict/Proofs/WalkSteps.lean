import Mathlib.Computability.StateTransition
import Verdict.Proofs.ReferenceWalk

/-!
# The walk along references, one step at a time

The check of references calls itself for the rules to which a rule refers. Here these
calls are laid out as the steps of a machine. For each rule on the path it keeps the names
that are yet to be followed, so all that a check goes through are stages of the machine,
and it comes to what the check comes to.

The check keeps its books twice, in the marks and on the path, and only the path tells of
the circle that is found. A step enters a rule, leaves the one that was entered last, or
does neither, and each of these keeps the two in step. No step makes a rule unvisited
again, so the references of a rule are followed at most once.
-/

namespace Verdict

/-! ## Stages -/

/-- A rule on the path of a walk, with the names that are yet to be followed from it. -/
structure Branch (count : Nat) where
  place : Fin count
  names : List String

/-- A walk under way: where it stands, the rule to which it comes next, if it comes to one, the
branches that it has taken, the innermost one first, and the places from which it is yet to
begin. -/
structure Journey (count : Nat) where
  walk : Walk count
  target : Option (Fin count)
  branches : List (Branch count)
  places : List (Fin count)

/-- A walk is under way, or it has come to an end. -/
inductive Stage (count : Nat) where
  | going (journey : Journey count)
  | ended (outcome : Except Error (Walk count))

namespace Journey

variable {count : Nat}

/-- The journey of the whole check when it begins. -/
def start (count : Nat) : Journey count :=
  ⟨.start count, none, [], List.finRange count⟩

/-- The rules of the branches, the outermost one first. -/
def owners (journey : Journey count) : List (Fin count) :=
  (journey.branches.map Branch.place).reverse

end Journey

namespace Stage

variable {count : Nat}

/-- The stage after a part of a walk that came to an outcome. -/
def resume (branches : List (Branch count)) (places : List (Fin count)) :
    Except Error (Walk count) → Stage count
  | .ok walk => .going ⟨walk, none, branches, places⟩
  | .error error => .ended (.error error)

end Stage

/-! ## Steps -/

namespace Registry

variable {registry : Registry}

/-- The next stage of a walk, unless it has come to an end. -/
def advance (registry : Registry) : Stage registry.size → Option (Stage registry.size)
  | .going ⟨walk, some place, branches, places⟩ =>
    match walk.mark place with
    | .done => some (.going ⟨walk, none, branches, places⟩)
    | .inProgress =>
      some (.ended (.error (.circularReference ((walk.cycle place).map registry.nameAt))))
    | .unvisited =>
      some (.going ⟨walk.enter place, none,
        ⟨place, (registry.ruleAt place).references⟩ :: branches, places⟩)
  | .going ⟨walk, none, ⟨place, []⟩ :: branches, places⟩ =>
    some (.going ⟨walk.leave place, none, branches, places⟩)
  | .going ⟨walk, none, ⟨place, name :: names⟩ :: branches, places⟩ =>
    match registry.place? name with
    | none => some (.ended (.error (.unknownRule name)))
    | some other => some (.going ⟨walk, some other, ⟨place, names⟩ :: branches, places⟩)
  | .going ⟨walk, none, [], place :: places⟩ => some (.going ⟨walk, some place, [], places⟩)
  | .going ⟨walk, none, [], []⟩ => some (.ended (.ok walk))
  | .ended _ => none

variable {walk : Walk registry.size} {place other : Fin registry.size}
  {branches : List (Branch registry.size)} {places : List (Fin registry.size)} {name : String}

theorem advance_of_done (isDone : walk.mark place = .done) :
    registry.advance (.going ⟨walk, some place, branches, places⟩) =
      some (.going ⟨walk, none, branches, places⟩) := by
  rw [advance, isDone]

theorem advance_of_inProgress (inProgress : walk.mark place = .inProgress) :
    registry.advance (.going ⟨walk, some place, branches, places⟩) =
      some (.ended (.error (.circularReference ((walk.cycle place).map registry.nameAt)))) := by
  rw [advance, inProgress]

theorem advance_of_unvisited (unvisited : walk.mark place = .unvisited) :
    registry.advance (.going ⟨walk, some place, branches, places⟩) =
      some (.going ⟨walk.enter place, none,
        ⟨place, (registry.ruleAt place).references⟩ :: branches, places⟩) := by
  rw [advance, unvisited]

theorem advance_of_known (known : registry.place? name = some other) (names : List String) :
    registry.advance (.going ⟨walk, none, ⟨place, name :: names⟩ :: branches, places⟩) =
      some (.going ⟨walk, some other, ⟨place, names⟩ :: branches, places⟩) := by
  rw [advance, known]

theorem advance_of_unknown (unknown : registry.place? name = none) (names : List String) :
    registry.advance (.going ⟨walk, none, ⟨place, name :: names⟩ :: branches, places⟩) =
      some (.ended (.error (.unknownRule name))) := by
  rw [advance, unknown]

/-! ## The steps are those of the walk -/

/-- If walks from single rules come to their outcomes step by step while fewer rules than a bound
remain, so does a walk along the names of a branch. -/
theorem reaches_endAll
    {bound : Nat}
    (fromReaches : ∀ (walk : Walk registry.size) (place : Fin registry.size)
      (branches : List (Branch registry.size)) (places : List (Fin registry.size)),
      walk.remaining < bound →
      StateTransition.Reaches registry.advance (.going ⟨walk, some place, branches, places⟩)
        (.resume branches places (registry.endFrom walk place)))
    (walk : Walk registry.size)
    (bounded : walk.remaining < bound)
    (place : Fin registry.size)
    (branches : List (Branch registry.size))
    (places : List (Fin registry.size))
    (names : List String) :
    StateTransition.Reaches registry.advance
      (.going ⟨walk, none, ⟨place, names⟩ :: branches, places⟩)
      (.resume (⟨place, []⟩ :: branches) places (registry.endAll walk names)) := by
  induction names generalizing walk with
  | nil =>
    rw [endAll_nil]
    exact .refl
  | cons name names inductionHypothesis =>
    cases known : registry.place? name with
    | none =>
      rw [endAll_of_unknown known]
      exact .single (advance_of_unknown known names)
    | some other =>
      have first := fromReaches walk other (⟨place, names⟩ :: branches) places bounded
      rw [endAll_of_known known]
      refine .head (advance_of_known known names) (first.trans ?_)
      cases ended : registry.endFrom walk other with
      | error error => exact .refl
      | ok between =>
        have fewer := Nat.lt_of_le_of_lt (remaining_endFrom_le ended) bounded
        exact inductionHypothesis between fewer

/-- A walk from a rule comes to its outcome step by step. -/
theorem reaches_endFrom
    (bound : Nat)
    (walk : Walk registry.size)
    (place : Fin registry.size)
    (branches : List (Branch registry.size))
    (places : List (Fin registry.size))
    (bounded : walk.remaining < bound) :
    StateTransition.Reaches registry.advance (.going ⟨walk, some place, branches, places⟩)
      (.resume branches places (registry.endFrom walk place)) := by
  -- each rule that is entered leaves fewer to be entered
  induction bound generalizing walk place branches places with
  | zero => exact absurd bounded (Nat.not_lt_zero _)
  | succ bound inductionHypothesis =>
    cases marked : walk.mark place with
    | done =>
      rw [endFrom_of_done marked]
      exact .single (advance_of_done marked)
    | inProgress =>
      rw [endFrom_of_inProgress marked]
      exact .single (advance_of_inProgress marked)
    | unvisited =>
      have fewer : (walk.enter place).remaining < bound :=
        Nat.lt_of_lt_of_le (Walk.remaining_enter_lt marked) (Nat.le_of_lt_succ bounded)
      have inside := reaches_endAll inductionHypothesis (walk.enter place) fewer place branches
        places (registry.ruleAt place).references
      rw [endFrom_of_unvisited marked]
      refine .head (advance_of_unvisited marked) (inside.trans ?_)
      cases registry.endAll (walk.enter place) (registry.ruleAt place).references with
      | error error => exact .refl
      | ok after => exact .single rfl

/-- Walks from one rule after another come to their outcome step by step. -/
theorem reaches_foldlM_endFrom
    (walk : Walk registry.size)
    (places : List (Fin registry.size)) :
    StateTransition.Reaches registry.advance (.going ⟨walk, none, [], places⟩)
      (.ended (places.foldlM registry.endFrom walk)) := by
  induction places generalizing walk with
  | nil => exact .single rfl
  | cons place places inductionHypothesis =>
    have first := reaches_endFrom (walk.remaining + 1) walk place [] places
      (Nat.lt_succ_self _)
    rw [List.foldlM_cons]
    refine .head rfl (first.trans ?_)
    cases registry.endFrom walk place with
    | error error => exact .refl
    | ok between => exact inductionHypothesis between

/-- The whole check comes to its outcome step by step, and ends there. -/
theorem ended_mem_eval (registry : Registry) :
    .ended (registry.walkEach (List.finRange registry.size)) ∈
      StateTransition.eval registry.advance (.going (.start registry.size)) :=
  StateTransition.mem_eval.2 ⟨reaches_foldlM_endFrom _ _, rfl⟩

end Registry

/-! ## What a step does -/

/-- A step that goes on with a walk enters an unvisited rule, leaves the one that was entered
last, or does neither. -/
inductive Journey.Moves {count : Nat} (before after : Journey count) : Prop
  | stays
      (walk : after.walk = before.walk)
      (owners : after.owners = before.owners)
  | enters
      {place : Fin count}
      (unvisited : before.walk.mark place = .unvisited)
      (walk : after.walk = before.walk.enter place)
      (owners : after.owners = before.owners ++ [place])
  | leaves
      {place : Fin count}
      (walk : after.walk = before.walk.leave place)
      (owners : before.owners = after.owners ++ [place])

namespace Registry

variable {registry : Registry} {journey later : Journey registry.size}
  {place : Fin registry.size}

theorem moves_of_advance
    {before after : Journey registry.size}
    (advanced : .going after ∈ registry.advance (.going before)) :
    before.Moves after := by
  obtain ⟨walk, target, branches, places⟩ := before
  cases target with
  | some place =>
    cases marked : walk.mark place with
    | done =>
      rw [advance_of_done marked] at advanced
      cases advanced
      exact .stays rfl rfl
    | inProgress =>
      rw [advance_of_inProgress marked] at advanced
      cases advanced
    | unvisited =>
      rw [advance_of_unvisited marked] at advanced
      cases advanced
      exact .enters marked rfl List.reverse_cons
  | none =>
    cases branches with
    | nil =>
      cases places with
      | nil => cases advanced
      | cons place places =>
        cases advanced
        exact .stays rfl rfl
    | cons branch branches =>
      obtain ⟨place, names⟩ := branch
      cases names with
      | nil =>
        cases advanced
        exact .leaves rfl List.reverse_cons
      | cons name names =>
        cases known : registry.place? name with
        | none =>
          rw [advance_of_unknown known] at advanced
          cases advanced
        | some other =>
          rw [advance_of_known known] at advanced
          cases advanced
          exact .stays rfl rfl

/-- What every step keeps holds from one stage on. -/
theorem kept_of_reaches
    {predicate : Journey registry.size → Prop}
    (kept : ∀ before after : Journey registry.size,
      before.Moves after → predicate before → predicate after)
    (reaches : StateTransition.Reaches registry.advance (.going journey) (.going later))
    (holds : predicate journey) :
    predicate later := by
  generalize isLater : Stage.going later = stage at reaches
  induction reaches generalizing later with
  | refl =>
    cases isLater
    exact holds
  | @tail between next _ advanced inductionHypothesis =>
    subst isLater
    cases between with
    | ended outcome => cases advanced
    | going before => exact kept before later (moves_of_advance advanced) (inductionHypothesis rfl)

end Registry

/-! ## The books -/

namespace Journey

variable {count : Nat} {before after : Journey count} {place : Fin count}

/-- The books of a journey are in step: the rules in progress are those on the path, each of them
once, and these are the rules of the branches. -/
structure InStep (journey : Journey count) : Prop where
  walk : journey.walk.InStep
  path_eq : journey.walk.path = journey.owners

theorem InStep.move
    (inStep : before.InStep)
    (moves : before.Moves after) :
    after.InStep := by
  cases moves with
  | stays sameWalk sameOwners =>
    exact ⟨sameWalk ▸ inStep.walk, by rw [sameWalk, sameOwners, inStep.path_eq]⟩
  | enters unvisited entered longer =>
    refine ⟨entered ▸ inStep.walk.enter unvisited, ?_⟩
    rw [entered, Walk.path_enter, longer, inStep.path_eq]
  | leaves left shorter =>
    have atEnd := inStep.path_eq.trans shorter
    refine ⟨left ▸ inStep.walk.leave atEnd, ?_⟩
    rw [left, Walk.path_leave, atEnd, List.dropLast_concat]

/-- A rule that was entered is never unvisited again. -/
theorem mark_ne_unvisited
    (wasEntered : before.walk.mark place ≠ .unvisited)
    (moves : before.Moves after) :
    after.walk.mark place ≠ .unvisited := by
  cases moves with
  | stays sameWalk => rwa [sameWalk]
  | enters _ entered =>
    rw [entered, Walk.mark_enter]
    split
    · exact nofun
    · exact wasEntered
  | leaves left =>
    rw [left, Walk.mark_leave]
    split
    · exact nofun
    · exact wasEntered

end Journey

namespace Registry

variable {registry : Registry} {journey later : Journey registry.size}
  {place : Fin registry.size}

/-- The books are in step at every stage of the check. -/
theorem inStep_of_reaches
    (reaches : StateTransition.Reaches registry.advance
      (.going (.start registry.size)) (.going journey)) :
    journey.InStep :=
  kept_of_reaches (fun _ _ moves inStep => inStep.move moves) reaches
    ⟨.start registry.size, rfl⟩

/-- A step expands a rule: it adds a branch along the names to which the rule refers. -/
def Expands (registry : Registry) (journey : Journey registry.size)
    (place : Fin registry.size) : Prop :=
  ∃ next : Journey registry.size, .going next ∈ registry.advance (.going journey) ∧
    next.branches = ⟨place, (registry.ruleAt place).references⟩ :: journey.branches

/-- A rule that is expanded was not entered before, and is entered. -/
theorem Expands.enters
    (expands : registry.Expands journey place) :
    journey.walk.mark place = .unvisited ∧
      ∃ next : Journey registry.size, .going next ∈ registry.advance (.going journey) ∧
        next.walk = journey.walk.enter place := by
  obtain ⟨next, advanced, longer⟩ := expands
  have owners : next.owners = journey.owners ++ [place] := by
    rw [Journey.owners, longer, List.map_cons, List.reverse_cons, Journey.owners]
  cases moves_of_advance advanced with
  | stays _ same =>
    rw [same] at owners
    exact absurd owners.symm (by simp)
  | @enters entered unvisited isEntered byEntered =>
    obtain rfl : place = entered :=
      List.singleton_inj.1 (List.append_cancel_left (owners.symm.trans byEntered))
    exact ⟨unvisited, next, advanced, isEntered⟩
  | leaves _ shorter =>
    rw [owners] at shorter
    exact absurd shorter (by simp)

/-- A rule that was expanded is not expanded again. -/
theorem Expands.not_again
    (expands : registry.Expands journey place)
    (reaches : StateTransition.Reaches₁ registry.advance (.going journey) (.going later)) :
    ¬registry.Expands later place := by
  intro again
  obtain ⟨_, next, advanced, entered⟩ := expands.enters
  have nowEntered : next.walk.mark place ≠ .unvisited := by
    rw [entered, Walk.mark_enter, if_pos rfl]
    exact nofun
  have stillEntered := kept_of_reaches
    (fun _ _ moves wasEntered => Journey.mark_ne_unvisited wasEntered moves)
    (StateTransition.reaches₁_fwd reaches advanced) nowEntered
  exact stillEntered again.enters.1

/-- A visit is a part of the check, which ends with it or goes on from where it came to. -/
theorem reaches_of_target
    (target : journey.target = some place) :
    StateTransition.Reaches registry.advance (.going journey)
      (.resume journey.branches journey.places (registry.endFrom journey.walk place)) := by
  obtain ⟨walk, target, branches, places⟩ := journey
  subst target
  exact reaches_endFrom (walk.remaining + 1) walk place branches places (Nat.lt_succ_self _)

/-- A visit that succeeds comes back to the path from which it began. -/
theorem path_eq_of_endFrom
    (reached : StateTransition.Reaches registry.advance
      (.going (.start registry.size)) (.going journey))
    (target : journey.target = some place)
    {after : Walk registry.size}
    (ended : registry.endFrom journey.walk place = .ok after) :
    after.InStep ∧ after.path = journey.walk.path := by
  have visited := reaches_of_target target
  rw [ended] at visited
  have inStepAfter := inStep_of_reaches (reached.trans visited)
  -- the branches are those with which the visit began, and the path is that of their rules
  exact ⟨inStepAfter.walk, inStepAfter.path_eq.trans (inStep_of_reaches reached).path_eq.symm⟩

/-- The books are kept while the check walks along references. -/
structure KeepsBooks (registry : Registry) (journey : Journey registry.size) : Prop where
  /-- The rules in progress are those on the path. -/
  inProgress_iff : ∀ place, journey.walk.mark place = .inProgress ↔ place ∈ journey.walk.path
  /-- No rule is on the path twice. -/
  distinct : journey.walk.path.Nodup
  /-- A rule in progress to which the walk comes is found on the path. -/
  found : ∀ place, journey.target = some place → journey.walk.mark place = .inProgress →
    ∃ position, journey.walk.path.findIdx? (· == place) = some position ∧
      position < journey.walk.path.length
  /-- There are a rule and a mark for each number that the check looks up: it counts up to it, a
  name leads to it, or it is on the path. -/
  inBounds : ∀ number, number < registry.size ∨
    (∃ name, registry.indexOf? name = some number) ∨ number ∈ journey.walk.path.map Fin.val →
      registry.rules[number]?.isSome ∧ journey.walk.marks[number]?.isSome
  /-- A visit to a rule is a part of the check, which goes on from where the visit came to, or
  ends with its error. -/
  visits : ∀ place, journey.target = some place →
    StateTransition.Reaches registry.advance (.going journey)
      (.resume journey.branches journey.places
        ((registry.walkFrom journey.walk place).map Subtype.val))
  /-- A visit that succeeds comes back to the path, and leaves no further rule in progress. -/
  restored : ∀ place after, journey.target = some place →
    registry.walkFrom journey.walk place = .ok after →
      after.1.path = journey.walk.path ∧
        ∀ other, after.1.mark other = .inProgress ↔ journey.walk.mark other = .inProgress
  /-- A rule that is expanded is not expanded again. -/
  once : ∀ place later, registry.Expands journey place →
    StateTransition.Reaches₁ registry.advance (.going journey) (.going later) →
      ¬registry.Expands later place

/-- The check of references ends, with the outcome of the steps that it takes, and the books are
kept at every one of them. -/
theorem walk_keeps_books
    (registry : Registry) :
    (∃ outcome,
      .ended outcome ∈ StateTransition.eval registry.advance (.going (.start registry.size)) ∧
        registry.validate = outcome.map fun _ => ()) ∧
    ∀ journey,
      StateTransition.Reaches registry.advance (.going (.start registry.size)) (.going journey) →
        registry.KeepsBooks journey := by
  refine ⟨⟨_, ended_mem_eval registry, rfl⟩, ?_⟩
  intro journey reached
  have inStep := (inStep_of_reaches reached).walk
  constructor
  case inProgress_iff => exact inStep.inProgress_iff
  case distinct => exact inStep.distinct
  case found =>
    intro place _ inProgress
    have onPath := (inStep.inProgress_iff place).1 inProgress
    cases found : journey.walk.path.findIdx? (· == place) with
    | none => simpa using List.findIdx?_eq_none_iff.1 found place onPath
    | some position => exact ⟨position, rfl, (List.findIdx?_eq_some_iff_findIdx_eq.1 found).1⟩
  case inBounds =>
    intro number lookedUp
    have below : number < registry.size := by
      rcases lookedUp with below | ⟨name, known⟩ | onPath
      · exact below
      · exact lt_size_of_indexOf? known
      · obtain ⟨place, _, rfl⟩ := List.mem_map.1 onPath
        exact place.isLt
    exact ⟨by simpa [size] using below, by simpa using below⟩
  case visits => exact fun _ target => reaches_of_target target
  case restored =>
    intro place after target walked
    have ended : registry.endFrom journey.walk place = .ok after.1 := by
      rw [endFrom, walked]
      rfl
    obtain ⟨inStepAfter, samePath⟩ := path_eq_of_endFrom reached target ended
    refine ⟨samePath, fun other => ?_⟩
    rw [inStepAfter.inProgress_iff, inStep.inProgress_iff, samePath]
  case once => exact fun _ _ expands => expands.not_again

end Registry
end Verdict
