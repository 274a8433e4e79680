import Mathlib.Data.List.Nodup
import Verdict.Proofs.Reference

/-!
# The walk along references

The check of references walks depth first and marks each rule as it is entered
and left. The invariant is that the rules in progress are those on the path, which
follows references, and that a rule that is done refers to rules that are done and
is on no circle.

A rule that is left keeps the invariant: a circle through it would pass through
one of the rules to which it refers, and they are done. From this the check
succeeds exactly when all references lead to rules and none closes a circle.
-/

namespace Verdict

/-! ## Marks -/

namespace Walk

variable {count : Nat} {walk : Walk count} {place other : Fin count}

@[simp] theorem path_enter : (walk.enter place).path = walk.path ++ [place] :=
  rfl

@[simp] theorem path_leave : (walk.leave place).path = walk.path.dropLast :=
  rfl

theorem mark_enter :
    (walk.enter place).mark other = if place = other then .inProgress else walk.mark other := by
  simp [mark, enter, Vector.getElem_set, Fin.ext_iff]

theorem mark_leave :
    (walk.leave place).mark other = if place = other then .done else walk.mark other := by
  simp [mark, leave, Vector.getElem_set, Fin.ext_iff]

/-- The marks and the path of a walk are in step: the rules in progress are those on the
path, and each of them is on it once. -/
structure InStep (walk : Walk count) : Prop where
  inProgress_iff : ∀ place, walk.mark place = .inProgress ↔ place ∈ walk.path
  distinct : walk.path.Nodup

namespace InStep

theorem start (count : Nat) : (Walk.start count).InStep where
  inProgress_iff place := by simp [mark, Walk.start]
  distinct := List.nodup_nil

theorem enter
    (inStep : walk.InStep)
    (unvisited : walk.mark place = .unvisited) :
    (walk.enter place).InStep where
  inProgress_iff other := by
    rw [mark_enter, path_enter, List.mem_append, List.mem_singleton]
    by_cases same : place = other
    · simp [same]
    · rw [if_neg same, inStep.inProgress_iff, or_iff_left (Ne.symm same)]
  distinct := by
    have notOnPath : place ∉ walk.path := by
      rw [← inStep.inProgress_iff, unvisited]
      exact nofun
    rw [path_enter, ← List.concat_eq_append]
    exact List.Nodup.concat notOnPath inStep.distinct

theorem leave
    (inStep : walk.InStep)
    {path : List (Fin count)}
    (atEnd : walk.path = path ++ [place]) :
    (walk.leave place).InStep := by
  have distinct : (path ++ [place]).Nodup := atEnd ▸ inStep.distinct
  have shorter : (walk.leave place).path = path := by
    rw [path_leave, atEnd, List.dropLast_concat]
  constructor
  case inProgress_iff =>
    intro other
    rw [mark_leave, shorter]
    by_cases same : place = other
    · rw [if_pos same]
      have notBefore := List.disjoint_singleton.1 (List.disjoint_of_nodup_append distinct)
      exact iff_of_false nofun (same ▸ notBefore)
    · rw [if_neg same, inStep.inProgress_iff, atEnd, List.mem_append, List.mem_singleton,
        or_iff_left (Ne.symm same)]
  case distinct =>
    rw [shorter]
    exact distinct.of_append_left

end InStep

/-- A walk that went on: it is back on the same path, and what was done stays so. -/
structure Extends (before after : Walk count) : Prop where
  path : after.path = before.path
  inProgress : ∀ place, after.mark place = .inProgress ↔ before.mark place = .inProgress
  done : ∀ place, before.mark place = .done → after.mark place = .done

namespace Extends

variable {before between after : Walk count}

theorem refl (walk : Walk count) : walk.Extends walk :=
  ⟨rfl, fun _ => Iff.rfl, fun _ => id⟩

theorem trans
    (first : before.Extends between)
    (second : between.Extends after) :
    before.Extends after where
  path := second.path.trans first.path
  inProgress place := (second.inProgress place).trans (first.inProgress place)
  done place isDone := second.done place (first.done place isDone)

/-- A walk that entered an unvisited rule, went on and left the rule again. -/
theorem leave
    (unvisited : before.mark place = .unvisited)
    (inside : (before.enter place).Extends after) :
    before.Extends (after.leave place) where
  path := by rw [path_leave, inside.path, path_enter, List.dropLast_concat]
  inProgress other := by
    rw [mark_leave]
    by_cases same : place = other
    · subst same
      simp [unvisited]
    · rw [if_neg same, inside.inProgress, mark_enter, if_neg same]
  done other isDone := by
    rw [mark_leave]
    by_cases same : place = other
    · rw [if_pos same]
    · rw [if_neg same]
      exact inside.done other (by rw [mark_enter, if_neg same, isDone])

end Extends

/-- The circle that a walk reports begins and ends with the rule to which it came
back, and goes along the path in between. -/
theorem exists_cycle_eq
    (onPath : place ∈ walk.path) :
    ∃ tail, walk.cycle place = place :: tail ++ [place] ∧ place :: tail <:+ walk.path := by
  obtain ⟨early, tail, split, notEarly⟩ := List.eq_append_cons_of_mem onPath
  have notFound : early.findIdx? (· == place) = none := by
    rw [List.findIdx?_eq_none_iff]
    intro other isEarly
    exact beq_false_of_ne fun same => notEarly (same ▸ isEarly)
  have found : walk.path.findIdx? (· == place) = some early.length := by
    rw [split, List.findIdx?_append, notFound]
    simp [List.findIdx?_cons]
  refine ⟨tail, ?_, early, split.symm⟩
  rw [cycle, found, Option.getD_some, split, List.drop_left]

end Walk

/-! ## The invariant -/

namespace Registry

variable {registry : Registry}

/-- The invariant of a walk along the references of a registry. -/
structure Consistent (registry : Registry) (walk : Walk registry.size) : Prop where
  inProgress_iff : ∀ place, walk.mark place = .inProgress ↔ place ∈ walk.path
  distinct : walk.path.Nodup
  linked : (walk.path.map registry.nameAt).IsChain registry.Refers
  closed : ∀ place, walk.mark place = .done → ∀ name,
    registry.Refers (registry.nameAt place) name →
      ∃ next, registry.nameAt next = name ∧ walk.mark next = .done
  grounded : ∀ place, walk.mark place = .done →
    ¬Relation.TransGen registry.Refers (registry.nameAt place) (registry.nameAt place)

namespace Consistent

variable {walk : Walk registry.size} {place : Fin registry.size}

theorem start (registry : Registry) : registry.Consistent (.start registry.size) where
  inProgress_iff place := by simp [Walk.mark, Walk.start]
  distinct := List.nodup_nil
  linked := List.isChain_nil
  closed place isDone := by simp [Walk.mark, Walk.start] at isDone
  grounded place isDone := by simp [Walk.mark, Walk.start] at isDone

theorem inStep (consistent : registry.Consistent walk) : walk.InStep :=
  ⟨consistent.inProgress_iff, consistent.distinct⟩

/-- References from a rule that is done lead to rules that are done. -/
theorem done_of_reachable
    (consistent : registry.Consistent walk)
    (isDone : walk.mark place = .done)
    {name : String}
    (reachable : Relation.ReflTransGen registry.Refers (registry.nameAt place) name) :
    ∃ next, registry.nameAt next = name ∧ walk.mark next = .done := by
  induction reachable with
  | refl => exact ⟨place, rfl, isDone⟩
  | tail _ refers inductionHypothesis =>
    obtain ⟨between, named, betweenDone⟩ := inductionHypothesis
    exact consistent.closed between betweenDone _ (named ▸ refers)

/-- The rule to which the last rule on the path refers may be entered. -/
theorem enter
    (consistent : registry.Consistent walk)
    (unvisited : walk.mark place = .unvisited)
    (approached : ∀ last ∈ walk.path.getLast?,
      registry.Refers (registry.nameAt last) (registry.nameAt place)) :
    registry.Consistent (walk.enter place) := by
  have wasDone : ∀ other, (walk.enter place).mark other = .done → walk.mark other = .done := by
    intro other isDone
    rw [Walk.mark_enter] at isDone
    split at isDone
    · exact nomatch isDone
    · exact isDone
  have stillDone : ∀ other, walk.mark other = .done → (walk.enter place).mark other = .done := by
    intro other isDone
    have different : place ≠ other := by
      rintro rfl
      exact nomatch unvisited.symm.trans isDone
    rw [Walk.mark_enter, if_neg different, isDone]
  have inStep := consistent.inStep.enter unvisited
  constructor
  case inProgress_iff => exact inStep.inProgress_iff
  case distinct => exact inStep.distinct
  case linked =>
    rw [Walk.path_enter, List.map_append]
    refine consistent.linked.append (List.isChain_singleton _) ?_
    intro last isLast name isName
    rw [List.getLast?_map] at isLast
    obtain ⟨lastPlace, atEnd, rfl⟩ := Option.map_eq_some_iff.1 isLast
    have sameName : registry.nameAt place = name := Option.some.inj isName
    exact sameName ▸ approached lastPlace atEnd
  case closed =>
    intro other isDone name refers
    obtain ⟨next, named, nextDone⟩ := consistent.closed other (wasDone other isDone) name refers
    exact ⟨next, named, stillDone next nextDone⟩
  case grounded =>
    intro other isDone
    exact consistent.grounded other (wasDone other isDone)

/-- A rule may be left when the rules to which it refers are done. -/
theorem leave
    (consistent : registry.Consistent walk)
    {path : List (Fin registry.size)}
    (atEnd : walk.path = path ++ [place])
    (referencesDone : ∀ name, registry.Refers (registry.nameAt place) name →
      ∃ next, registry.nameAt next = name ∧ walk.mark next = .done) :
    registry.Consistent (walk.leave place) := by
  have onPath : place ∈ walk.path := by simp [atEnd]
  have shorter : (walk.leave place).path = path := by
    rw [Walk.path_leave, atEnd, List.dropLast_concat]
  have nowDone : ∀ other, walk.mark other = .done → (walk.leave place).mark other = .done := by
    intro other isDone
    rw [Walk.mark_leave, isDone, ite_self]
  have inStep := consistent.inStep.leave atEnd
  constructor
  case inProgress_iff => exact inStep.inProgress_iff
  case distinct => exact inStep.distinct
  case linked =>
    rw [shorter]
    have linked := consistent.linked
    rw [atEnd, List.map_append] at linked
    exact linked.left_of_append
  case closed =>
    intro other isDone name refers
    have found : ∃ next, registry.nameAt next = name ∧ walk.mark next = .done := by
      by_cases same : place = other
      · exact referencesDone name (same ▸ refers)
      · rw [Walk.mark_leave, if_neg same] at isDone
        exact consistent.closed other isDone name refers
    obtain ⟨next, named, nextDone⟩ := found
    exact ⟨next, named, nowDone next nextDone⟩
  case grounded =>
    intro other isDone circle
    by_cases same : place = other
    · -- the first reference of the circle leads to a rule that is done, the others back here
      subst same
      obtain ⟨name, refers, back⟩ := Relation.TransGen.head'_iff.1 circle
      obtain ⟨next, rfl, nextDone⟩ := referencesDone name refers
      obtain ⟨again, sameName, againDone⟩ := consistent.done_of_reachable nextDone back
      have isAgain : again = place := nameAt_injective sameName
      have entered : walk.mark place = .inProgress := (consistent.inProgress_iff place).2 onPath
      rw [isAgain, entered] at againDone
      exact nomatch againDone
    · rw [Walk.mark_leave, if_neg same] at isDone
      exact consistent.grounded other isDone circle

end Consistent

/-! ## The steps of a walk -/

variable {walk : Walk registry.size} {place : Fin registry.size}

/-- Where a walk from one rule ends. -/
def endFrom (registry : Registry) (walk : Walk registry.size) (place : Fin registry.size) :
    Except Error (Walk registry.size) :=
  (registry.walkFrom walk place).map Subtype.val

/-- Where a walk from the rules of several names ends. -/
def endAll (registry : Registry) (walk : Walk registry.size) (names : List String) :
    Except Error (Walk registry.size) :=
  (registry.walkAll walk names).map Subtype.val

theorem endFrom_of_done (isDone : walk.mark place = .done) :
    registry.endFrom walk place = .ok walk := by
  rw [endFrom, walkFrom]
  split <;> simp_all [Except.map]

theorem endFrom_of_inProgress (inProgress : walk.mark place = .inProgress) :
    registry.endFrom walk place =
      .error (.circularReference ((walk.cycle place).map registry.nameAt)) := by
  rw [endFrom, walkFrom]
  split <;> simp_all [Except.map]
  exact fun _ _ => rfl

theorem endFrom_of_unvisited (unvisited : walk.mark place = .unvisited) :
    registry.endFrom walk place =
      (registry.endAll (walk.enter place) (registry.ruleAt place).references).bind
        fun after => .ok (after.leave place) := by
  rw [endFrom, endAll, walkFrom]
  split <;> simp_all
  cases registry.walkAll (walk.enter place) (registry.ruleAt place).references <;> rfl

theorem remaining_endFrom_le
    {after : Walk registry.size}
    (ended : registry.endFrom walk place = .ok after) :
    after.remaining ≤ walk.remaining := by
  rw [endFrom] at ended
  cases walked : registry.walkFrom walk place with
  | error error =>
    rw [walked] at ended
    exact nomatch ended
  | ok onward =>
    rw [walked] at ended
    have same : onward.1 = after := Except.ok.inj ended
    exact same ▸ onward.2

theorem endAll_nil : registry.endAll walk [] = .ok walk := by
  rw [endAll, walkAll]
  rfl

theorem endAll_of_unknown
    {name : String}
    (unknown : registry.place? name = none)
    (names : List String) :
    registry.endAll walk (name :: names) = .error (.unknownRule name) := by
  rw [endAll, walkAll, unknown]
  rfl

theorem endAll_of_known
    {name : String}
    (known : registry.place? name = some place)
    (names : List String) :
    registry.endAll walk (name :: names) =
      (registry.endFrom walk place).bind fun between => registry.endAll between names := by
  rw [endAll, walkAll, known, endFrom]
  simp only
  cases registry.walkFrom walk place with
  | error error => rfl
  | ok between =>
    change ((registry.walkAll between.1 names).bind _).map _ = (registry.walkAll between.1 names).map _
    cases registry.walkAll between.1 names <;> rfl

/-! ## What a walk finds -/

/-- A chain of names goes along references and comes back to its first name, and to
no other name before. -/
def IsCircle (registry : Registry) (chain : List String) : Prop :=
  ∃ first tail, chain = first :: tail ++ [first] ∧ (first :: tail).Nodup ∧
    chain.IsChain registry.Refers

/-- An error of a walk tells of a reference that leads nowhere or of a circle. -/
def Blamed (registry : Registry) : Error → Prop
  | .unknownRule name => name ∉ registry.names ∧ ∃ referrer, registry.Refers referrer name
  | .circularReference chain => registry.IsCircle chain
  | _ => False

/-- A walk comes back to where it began with more rules done, or rightly fails. -/
def Settles (registry : Registry) (walk : Walk registry.size)
    (settled : Walk registry.size → Prop) : Except Error (Walk registry.size) → Prop
  | .ok after => registry.Consistent after ∧ walk.Extends after ∧ settled after
  | .error error => registry.Blamed error

/-- A walk may be followed by another one, which goes on from where it came to. -/
theorem Settles.bind
    {base walk : Walk registry.size}
    {settled allSettled : Walk registry.size → Prop}
    {outcome : Except Error (Walk registry.size)}
    {next : Walk registry.size → Except Error (Walk registry.size)}
    (first : registry.Settles base settled outcome)
    (second : ∀ between, outcome = .ok between → registry.Consistent between →
      base.Extends between → settled between → registry.Settles walk allSettled (next between)) :
    registry.Settles walk allSettled (outcome.bind next) := by
  cases outcome with
  | error error => exact first
  | ok between =>
    obtain ⟨consistent, onward, isSettled⟩ := first
    exact second between rfl consistent onward isSettled

/-- What goes on from a walk that did its part also goes on from where that began. -/
theorem Settles.after
    {between : Walk registry.size}
    {settled allSettled : Walk registry.size → Prop}
    {outcome : Except Error (Walk registry.size)}
    (settles : registry.Settles between settled outcome)
    (onward : walk.Extends between)
    (together : ∀ after, between.Extends after → settled after → allSettled after) :
    registry.Settles walk allSettled outcome := by
  cases outcome with
  | error error => exact settles
  | ok after =>
    obtain ⟨consistent, onwardAgain, isSettled⟩ := settles
    exact ⟨consistent, onward.trans onwardAgain, together after onwardAgain isSettled⟩

/-- Coming back to a rule in progress closes a circle. -/
theorem isCircle_cycle
    (consistent : registry.Consistent walk)
    (inProgress : walk.mark place = .inProgress)
    (approached : ∀ last ∈ walk.path.getLast?,
      registry.Refers (registry.nameAt last) (registry.nameAt place)) :
    registry.IsCircle ((walk.cycle place).map registry.nameAt) := by
  obtain ⟨tail, isCycle, isSuffix⟩ :=
    Walk.exists_cycle_eq ((consistent.inProgress_iff place).1 inProgress)
  have linked : ((place :: tail).map registry.nameAt).IsChain registry.Refers :=
    consistent.linked.suffix (isSuffix.map registry.nameAt)
  have distinct : ((place :: tail).map registry.nameAt).Nodup :=
    (consistent.distinct.sublist isSuffix.sublist).map nameAt_injective
  refine ⟨registry.nameAt place, tail.map registry.nameAt, by rw [isCycle]; simp, distinct, ?_⟩
  rw [isCycle, List.map_append]
  refine linked.append (List.isChain_singleton _) ?_
  intro last isLast name isName
  have sameName : registry.nameAt place = name := Option.some.inj isName
  rw [List.getLast?_map] at isLast
  obtain ⟨lastPlace, atEnd, rfl⟩ := Option.map_eq_some_iff.1 isLast
  obtain ⟨early, split⟩ := isSuffix
  have endsPath : lastPlace ∈ walk.path.getLast? := by
    rw [← split, List.getLast?_append_of_ne_nil _ (List.cons_ne_nil place tail)]
    exact atEnd
  exact sameName ▸ approached lastPlace endsPath

/-- If walks from single rules settle while fewer rules than a bound remain, so do
walks from all rules to which the last rule on the path refers. -/
theorem endAll_settles
    {bound : Nat}
    (fromSettles : ∀ (walk : Walk registry.size) (place : Fin registry.size),
      walk.remaining < bound → registry.Consistent walk →
      (∀ last ∈ walk.path.getLast?,
        registry.Refers (registry.nameAt last) (registry.nameAt place)) →
      registry.Settles walk (fun after => after.mark place = .done) (registry.endFrom walk place))
    (walk : Walk registry.size)
    (bounded : walk.remaining < bound)
    (consistent : registry.Consistent walk)
    {owner : String}
    (atOwner : walk.path.getLast?.map registry.nameAt = some owner)
    (names : List String)
    (refers : ∀ name ∈ names, registry.Refers owner name) :
    registry.Settles walk
      (fun after => ∀ name ∈ names, ∃ next, registry.nameAt next = name ∧ after.mark next = .done)
      (registry.endAll walk names) := by
  induction names generalizing walk with
  | nil =>
    rw [endAll_nil]
    exact ⟨consistent, .refl walk, nofun⟩
  | cons name names inductionHypothesis =>
    cases known : registry.place? name with
    | none =>
      rw [endAll_of_unknown known]
      exact ⟨place?_eq_none_iff.1 known, owner, refers name List.mem_cons_self⟩
    | some place =>
      rw [endAll_of_known known]
      have named : registry.nameAt place = name := place?_eq_some_iff.1 known
      have approached : ∀ last ∈ walk.path.getLast?,
          registry.Refers (registry.nameAt last) (registry.nameAt place) := by
        intro last isLast
        have isOwner : registry.nameAt last = owner := by
          rw [Option.mem_def.1 isLast] at atOwner
          exact Option.some.inj atOwner
        rw [isOwner, named]
        exact refers name List.mem_cons_self
      refine (fromSettles walk place bounded consistent approached).bind ?_
      intro between ended betweenConsistent onward isDone
      have fewer := Nat.lt_of_le_of_lt (remaining_endFrom_le ended) bounded
      have restSettles := inductionHypothesis between fewer betweenConsistent
        (onward.path.symm ▸ atOwner)
        fun other member => refers other (List.mem_cons_of_mem name member)
      refine restSettles.after onward ?_
      intro after onwardAgain restDone
      exact List.forall_mem_cons.2 ⟨⟨place, named, onwardAgain.done place isDone⟩, restDone⟩

/-- A walk from a rule to which the last rule on the path refers comes back with the
rule done, or rightly fails. -/
theorem endFrom_settles
    (bound : Nat)
    (walk : Walk registry.size)
    (place : Fin registry.size)
    (bounded : walk.remaining < bound)
    (consistent : registry.Consistent walk)
    (approached : ∀ last ∈ walk.path.getLast?,
      registry.Refers (registry.nameAt last) (registry.nameAt place)) :
    registry.Settles walk (fun after => after.mark place = .done)
      (registry.endFrom walk place) := by
  -- each rule that is entered leaves fewer to be entered, so the bound shrinks with the path
  induction bound generalizing walk place with
  | zero => exact absurd bounded (Nat.not_lt_zero _)
  | succ bound inductionHypothesis =>
    cases marked : walk.mark place with
    | done =>
      rw [endFrom_of_done marked]
      exact ⟨consistent, .refl walk, marked⟩
    | inProgress =>
      rw [endFrom_of_inProgress marked]
      exact isCircle_cycle consistent marked approached
    | unvisited =>
      rw [endFrom_of_unvisited marked]
      have entered := consistent.enter marked approached
      have fewer : (walk.enter place).remaining < bound :=
        Nat.lt_of_lt_of_le (Walk.remaining_enter_lt marked) (Nat.le_of_lt_succ bounded)
      have atPlace :
          (walk.enter place).path.getLast?.map registry.nameAt = some (registry.nameAt place) := by
        simp
      have insideSettles := endAll_settles inductionHypothesis (walk.enter place) fewer entered
        atPlace (registry.ruleAt place).references fun _ member => refers_nameAt_iff.2 member
      refine insideSettles.bind ?_
      intro after _ afterConsistent onward referencesDone
      have left := afterConsistent.leave (onward.path.trans Walk.path_enter)
        fun name refers => referencesDone name (refers_nameAt_iff.1 refers)
      have placeDone : (after.leave place).mark place = .done := by
        rw [Walk.mark_leave, if_pos rfl]
      exact ⟨left, .leave marked onward, placeDone⟩

/-! ## The whole check -/

/-- Walks from one rule after another keep the invariant and do all of the rules. -/
theorem foldlM_endFrom_settles
    (places : List (Fin registry.size))
    (walk : Walk registry.size)
    (consistent : registry.Consistent walk)
    (atStart : walk.path = []) :
    registry.Settles walk (fun after => ∀ place ∈ places, after.mark place = .done)
      (places.foldlM registry.endFrom walk) := by
  induction places generalizing walk with
  | nil => exact ⟨consistent, .refl walk, nofun⟩
  | cons place places inductionHypothesis =>
    have approached : ∀ last ∈ walk.path.getLast?,
        registry.Refers (registry.nameAt last) (registry.nameAt place) := by
      simp [atStart]
    have firstSettles := endFrom_settles (walk.remaining + 1) walk place
      (Nat.lt_succ_self _) consistent approached
    rw [List.foldlM_cons]
    refine firstSettles.bind ?_
    intro between _ betweenConsistent onward isDone
    have restSettles := inductionHypothesis between betweenConsistent (onward.path.trans atStart)
    refine restSettles.after onward ?_
    intro after onwardAgain restDone
    exact List.forall_mem_cons.2 ⟨onwardAgain.done place isDone, restDone⟩

theorem walkEach_settles (registry : Registry) :
    registry.Settles (.start registry.size) (fun after => ∀ place, after.mark place = .done)
      (registry.walkEach (List.finRange registry.size)) := by
  have settles := foldlM_endFrom_settles (List.finRange registry.size)
    (.start registry.size) (.start registry) rfl
  have everywhere : (fun after : Walk registry.size =>
      ∀ place ∈ List.finRange registry.size, after.mark place = .done) =
      fun after => ∀ place, after.mark place = .done := by
    simp
  exact everywhere ▸ settles

/-- When every rule is done, all references lead to rules and none closes a circle. -/
theorem Consistent.resolved_and_acyclic
    (consistent : registry.Consistent walk)
    (allDone : ∀ place, walk.mark place = .done) :
    registry.Resolved ∧ registry.Acyclic := by
  constructor
  · intro rule member name mentions
    obtain ⟨place, atPlace⟩ := exists_ruleAt_of_mem member
    have refers : registry.Refers (registry.nameAt place) name :=
      ⟨rule, member, (congrArg Rule.name atPlace).symm, mentions⟩
    obtain ⟨next, named, _⟩ := consistent.closed place (allDone place) name refers
    exact mem_names_iff.2 ⟨next, named⟩
  · intro name circle
    obtain ⟨_, ⟨rule, member, named, _⟩, _⟩ := Relation.TransGen.head'_iff.1 circle
    obtain ⟨place, atPlace⟩ := exists_ruleAt_of_mem member
    have sameName : registry.nameAt place = name := (congrArg Rule.name atPlace).trans named
    exact consistent.grounded place (allDone place) (sameName ▸ circle)

/-- A rule at the beginning of a circle refers to itself through the others. -/
theorem IsCircle.exists_transGen
    {chain : List String}
    (circle : registry.IsCircle chain) :
    ∃ name, Relation.TransGen registry.Refers name name := by
  obtain ⟨first, tail, rfl, _, linked⟩ := circle
  rw [List.cons_append] at linked
  refine ⟨first, ?_⟩
  cases split : tail ++ [first] with
  | nil => exact absurd split (List.append_ne_nil_of_right_ne_nil _ (List.cons_ne_nil _ _))
  | cons next rest =>
    rw [split, List.isChain_cons_cons] at linked
    have atEnd : (next :: rest).getLast (List.cons_ne_nil _ _) = first := by
      simp only [← split, List.getLast_append_singleton]
    have back := List.relationReflTransGen_of_exists_isChain_cons rest linked.2 atEnd
    exact .head' linked.1 back

/-- An error of a walk is never raised when references are as they should be. -/
theorem Blamed.not_resolved_and_acyclic
    {error : Error}
    (blamed : registry.Blamed error) :
    ¬(registry.Resolved ∧ registry.Acyclic) := by
  rintro ⟨resolved, acyclic⟩
  cases error with
  | unknownRule name =>
    obtain ⟨unknown, _, refers⟩ := blamed
    exact unknown (resolved.mem_names refers)
  | circularReference chain =>
    obtain ⟨name, circle⟩ := blamed.exists_transGen
    exact acyclic name circle
  | _ => exact blamed

/-- The check succeeds exactly when references are as they should be. -/
theorem validate_eq_ok_iff :
    registry.validate = .ok () ↔ registry.Resolved ∧ registry.Acyclic := by
  have settles := walkEach_settles registry
  rw [validate]
  cases walked : registry.walkEach (List.finRange registry.size) with
  | error error =>
    rw [walked] at settles
    exact iff_of_false nofun settles.not_resolved_and_acyclic
  | ok after =>
    rw [walked] at settles
    obtain ⟨consistent, _, allDone⟩ := settles
    exact iff_of_true rfl (consistent.resolved_and_acyclic allDone)

/-- When the check fails, its error tells why. -/
theorem blamed_of_validate
    {error : Error}
    (failed : registry.validate = .error error) :
    registry.Blamed error := by
  have settles := walkEach_settles registry
  rw [validate] at failed
  cases walked : registry.walkEach (List.finRange registry.size) with
  | error found =>
    rw [walked] at settles failed
    have same : found = error := Except.error.inj failed
    exact same ▸ settles
  | ok after =>
    rw [walked] at failed
    exact nomatch failed

/-- The check succeeds exactly when every name that a rule mentions is registered and
no rule refers to itself through others. When it fails, it names a name that is
mentioned and not registered, or some rule does refer to itself. -/
theorem validate_sound_and_complete
    (registry : Registry) :
    (registry.validate = .ok () ↔
      (∀ rule ∈ registry.rules, ∀ name,
        rule.condition.Mentions name → name ∈ registry.names) ∧
      ∀ name, ¬Relation.TransGen registry.Refers name name) ∧
    (∀ name, registry.validate = .error (.unknownRule name) →
      name ∉ registry.names ∧ ∃ rule ∈ registry.rules, rule.condition.Mentions name) ∧
    (∀ chain, registry.validate = .error (.circularReference chain) →
      ∃ name, Relation.TransGen registry.Refers name name) ∧
    (∀ error, registry.validate = .error error →
      (∃ name, error = .unknownRule name) ∨ ∃ chain, error = .circularReference chain) := by
  refine ⟨validate_eq_ok_iff, ?unknown, ?circular, ?either⟩
  case unknown =>
    intro name failed
    obtain ⟨unknown, _, rule, member, _, mentions⟩ := blamed_of_validate failed
    exact ⟨unknown, rule, member, mentions⟩
  case circular =>
    intro chain failed
    exact (blamed_of_validate failed).exists_transGen
  case either =>
    intro error failed
    have blamed := blamed_of_validate failed
    cases error with
    | unknownRule name => exact .inl ⟨name, rfl⟩
    | circularReference chain => exact .inr ⟨chain, rfl⟩
    | _ => exact blamed.elim

end Registry
end Verdict
