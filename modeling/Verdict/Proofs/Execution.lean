import Mathlib.Data.List.Nodup
import Mathlib.Data.List.Perm.Subperm
import Verdict.Proofs.Visit

/-!
# Execution and visits

An execution threads a stack, a trace and the notes on a rule through a walk that
may fail anywhere. This module shows that it comes to what the visit to the rule
shows: the verdict, the event, the failed clauses, the rules that were asked and
the trace are those of the visit, and it fails exactly as the visit does.

A step that goes through a part of a condition leaves the stack as it was, also
when it fails, and adds to the notes what the visit to that part shows.
-/

namespace Verdict

variable {α β σ : Type}

/-- Two steps one after the other, when the first one comes to a value. -/
theorem bind_apply_of_ok
    {step : EStateM Error σ α}
    {next : α → EStateM Error σ β}
    {state later : σ}
    {value : α}
    (ran : step state = .ok value later) :
    (step >>= next) state = next value later := by
  simp [bind, EStateM.bind, ran]

/-- Two steps one after the other, when the first one fails. -/
theorem bind_apply_of_error
    {step : EStateM Error σ α}
    {next : α → EStateM Error σ β}
    {state later : σ}
    {error : Error}
    (ran : step state = .error error later) :
    (step >>= next) state = .error error later := by
  simp [bind, EStateM.bind, ran]

theorem modify_apply (change : σ → σ) (state : σ) :
    (modify change : EStateM Error σ PUnit) state = .ok ⟨⟩ (change state) :=
  rfl

/-! ## Notes -/

/-- What a part of a condition adds to the progress inside a rule. -/
@[ext]
structure Notes where
  lines : List String := []
  failed : List Clause := []
  overrides : List Event := []
  asked : List String := []

namespace Notes

/-- The notes of one part and then of another one. -/
def append (first second : Notes) : Notes where
  lines := first.lines ++ second.lines
  failed := first.failed ++ second.failed
  overrides := first.overrides ++ second.overrides
  asked := first.asked ++ second.asked

instance : Append Notes :=
  ⟨append⟩

@[simp] theorem append_lines (first second : Notes) :
    (first ++ second).lines = first.lines ++ second.lines :=
  rfl

@[simp] theorem append_failed (first second : Notes) :
    (first ++ second).failed = first.failed ++ second.failed :=
  rfl

@[simp] theorem append_overrides (first second : Notes) :
    (first ++ second).overrides = first.overrides ++ second.overrides :=
  rfl

@[simp] theorem append_asked (first second : Notes) :
    (first ++ second).asked = first.asked ++ second.asked :=
  rfl

end Notes

namespace Progress

/-- The progress with notes added. Of the events that were put in place only the
last one is kept, and of the rules that were asked each one once. -/
def extend (progress : Progress) (isTraced : Bool) (notes : Notes) : Progress where
  stack := progress.stack
  trace := progress.trace ++ if isTraced then notes.lines else []
  failed := progress.failed ++ notes.failed
  override := notes.overrides.getLast?.or progress.override
  dependencies := notes.asked.foldl noted progress.dependencies

@[simp] theorem stack_extend
    (progress : Progress)
    (isTraced : Bool)
    (notes : Notes) :
    (progress.extend isTraced notes).stack = progress.stack :=
  rfl

@[simp] theorem extend_extend
    (progress : Progress)
    (isTraced : Bool)
    (first second : Notes) :
    (progress.extend isTraced first).extend isTraced second =
      progress.extend isTraced (first ++ second) := by
  cases isTraced <;>
    simp [extend, List.getLast?_append, Option.or_assoc, List.foldl_append]

theorem extend_lines
    (progress : Progress)
    (isTraced : Bool)
    (lines : List String) :
    progress.extend isTraced { lines := lines } =
      { progress with trace := progress.trace ++ if isTraced then lines else [] } := by
  simp [extend]

theorem write_apply
    (isTraced : Bool)
    (address text : String)
    (progress : Progress) :
    write isTraced address text progress =
      .ok () (progress.extend isTraced { lines := [Trace.line address text] }) := by
  cases isTraced <;> simp [write, extend, modify_apply]

theorem record_apply
    (isTraced : Bool)
    (clause : Clause)
    (progress : Progress) :
    record clause progress = .ok () (progress.extend isTraced { failed := [clause] }) := by
  cases isTraced <;> simp [record, extend, modify_apply]

theorem replace_apply
    (isTraced : Bool)
    (event : Option Event)
    (progress : Progress) :
    replace event progress = .ok () (progress.extend isTraced { overrides := event.toList }) := by
  cases isTraced <;> cases event <;>
    simp [replace, extend, modify_apply]

theorem outside_of_ok
    {step : EStateM Error Context α}
    {progress : Progress}
    {value : α}
    {context : Context}
    (ran : step progress.toContext = .ok value context) :
    outside step progress = .ok value { progress with toContext := context } := by
  simp [outside, ran]

theorem outside_of_error
    {step : EStateM Error Context α}
    {progress : Progress}
    {error : Error}
    {context : Context}
    (ran : step progress.toContext = .error error context) :
    outside step progress = .error error { progress with toContext := context } := by
  simp [outside, ran]

theorem depend_apply
    (isTraced : Bool)
    (rule : String)
    (progress : Progress) :
    depend rule progress = .ok () (progress.extend isTraced { asked := [rule] }) := by
  cases isTraced <;> simp [depend, extend, modify_apply]

end Progress

/-! ## The notes of a visit -/

namespace Visit

/-- What a visit adds to the progress inside its rule. -/
def notes (address : String) (visit : Visit) : Notes :=
  ⟨visit.trace address, visit.failures, visit.overrides, visit.asked⟩

/-- What visited clauses of which all must hold add, the first of which has the
given index, after a clause with the given event. -/
def allNotes (address : String) (index : Nat) (last : Option Event)
    (clauses : List ClauseVisit) : Notes where
  lines := clauseTrace address "all" index clauses ++
    [Trace.line address
      (Trace.allText (if allHold clauses then none else some (lastIndex index clauses)))]
  failed := clauseFailures clauses
  overrides := clauseOverrides clauses ++
    (if allHold clauses then (lastEvent last clauses).toList else [])
  asked := clauseAsked clauses

/-- What visited clauses of which any must hold add, the first of which has the
given index. -/
def anyNotes (address : String) (index : Nat) (clauses : List ClauseVisit) : Notes where
  lines := clauseTrace address "any" index clauses ++
    [Trace.line address
      (Trace.anyText (if anyHolds clauses then some (lastIndex index clauses) else none))]
  failed := clauseFailures clauses
  overrides := clauseOverrides clauses ++
    (if anyHolds clauses then (lastEvent none clauses).toList else [])
  asked := clauseAsked clauses

theorem notes_not (address : String) (child : Visit) :
    (not child).notes address =
      child.notes (Trace.childAddress address) ++
        { lines := [Trace.line address (Trace.negationText !child.verdict)] } := by
  ext1 <;> simp [notes, trace, failures, overrides, asked, stepText]

theorem notes_reference (address rule : String) (body : Visit) :
    (reference rule body).notes address =
      { asked := [rule] } ++ ({ lines := body.trace rule } ++
        { lines := [Trace.line address (Trace.referenceText rule body.verdict)] }) := by
  ext1 <;> simp [notes, trace, failures, overrides, asked, stepText]

theorem allNotes_nil (address : String) (index : Nat) (last : Option Event) :
    allNotes address index last [] =
      { overrides := last.toList } ++ { lines := [Trace.line address (Trace.allText none)] } := by
  ext1 <;> simp [allNotes, clauseTrace, clauseFailures, clauseOverrides, clauseAsked, allHold,
    lastEvent]

theorem anyNotes_nil (address : String) (index : Nat) :
    anyNotes address index [] = { lines := [Trace.line address (Trace.anyText none)] } := by
  ext1 <;> simp [anyNotes, clauseTrace, clauseFailures, clauseOverrides, clauseAsked, anyHolds]

theorem notes_all (address : String) (clauses : List ClauseVisit) :
    (all clauses).notes address = allNotes address 0 none clauses := by
  simp [notes, allNotes, trace, failures, overrides, asked, stepText]

theorem notes_any (address : String) (clauses : List ClauseVisit) :
    (any clauses).notes address = anyNotes address 0 clauses := by
  simp [notes, anyNotes, trace, failures, overrides, asked, stepText]

/-- A clause that holds leaves the decision to the clauses after it. -/
theorem allNotes_cons
    (address : String)
    (index : Nat)
    (last : Option Event)
    (first : ClauseVisit)
    (holds : first.visit.verdict = true)
    (rest : List ClauseVisit) :
    allNotes address index last (first :: rest) =
      first.visit.notes (Trace.clauseAddress address "all" index) ++
        allNotes address (index + 1) first.clause.event rest := by
  obtain ⟨clause, visit⟩ := first
  have sameIndex : lastIndex index (⟨clause, visit⟩ :: rest) = lastIndex (index + 1) rest := by
    simp only [lastIndex, List.length_cons]
    omega
  ext1 <;>
    simp [allNotes, notes, clauseTrace, clauseFailures, clauseOverrides, clauseAsked, allHold,
      lastEvent, sameIndex, holds]

/-- A clause that does not hold settles a group of which all must hold. -/
theorem allNotes_settled
    (address : String)
    (index : Nat)
    (last : Option Event)
    (first : ClauseVisit)
    (fails : first.visit.verdict = false) :
    allNotes address index last [first] =
      first.visit.notes (Trace.clauseAddress address "all" index) ++
        ({ lines := [Trace.line address (Trace.allText (some index))] } ++
          { failed := [first.clause] }) := by
  obtain ⟨clause, visit⟩ := first
  ext1 <;>
    simp [allNotes, notes, clauseTrace, clauseFailures, clauseOverrides, clauseAsked, allHold,
      lastIndex, fails]

/-- A clause that does not hold leaves the decision to the clauses after it. -/
theorem anyNotes_cons
    (address : String)
    (index : Nat)
    (first : ClauseVisit)
    (fails : first.visit.verdict = false)
    (rest : List ClauseVisit) :
    anyNotes address index (first :: rest) =
      first.visit.notes (Trace.clauseAddress address "any" index) ++
        ({ failed := [first.clause] } ++ anyNotes address (index + 1) rest) := by
  obtain ⟨clause, visit⟩ := first
  have sameIndex : lastIndex index (⟨clause, visit⟩ :: rest) = lastIndex (index + 1) rest := by
    simp only [lastIndex, List.length_cons]
    omega
  ext1 <;>
    simp [anyNotes, notes, clauseTrace, clauseFailures, clauseOverrides, clauseAsked, anyHolds,
      lastEvent, sameIndex, fails]
  -- the clauses that follow give their own event unless there are none
  cases rest with
  | nil => simp [anyHolds]
  | cons next others =>
    obtain ⟨nextClause, nextVisit⟩ := next
    rfl

/-- A clause that holds settles a group of which any must hold. -/
theorem anyNotes_settled
    (address : String)
    (index : Nat)
    (first : ClauseVisit)
    (holds : first.visit.verdict = true) :
    anyNotes address index [first] =
      first.visit.notes (Trace.clauseAddress address "any" index) ++
        ({ overrides := first.clause.event.toList } ++
          { lines := [Trace.line address (Trace.anyText (some index))] }) := by
  obtain ⟨clause, visit⟩ := first
  ext1 <;>
    simp [anyNotes, notes, clauseTrace, clauseFailures, clauseOverrides, clauseAsked, anyHolds,
      lastIndex, lastEvent, holds]

end Visit

/-! ## Steps inside a rule -/

/-- A step inside a rule does what a visit shows: it comes to the verdict and adds
the notes. If the visit fails the step fails alike, and the stack is as before. -/
def Tracks (isTraced : Bool) (progress : Progress) (visited : Except Error α)
    (verdict : α → Bool) (notes : α → Notes) (step : EStateM Error Progress Bool) : Prop :=
  match visited with
  | .ok visit => step progress = .ok (verdict visit) (progress.extend isTraced (notes visit))
  | .error error =>
    ∃ later, step progress = .error error later ∧ later.stack = progress.stack

namespace Tracks

variable {isTraced : Bool} {progress : Progress}

/-- A step may be compared with a visit from which another one is made. -/
theorem map
    {visited : Except Error α}
    {make : α → β}
    {verdict : β → Bool}
    {notes : β → Notes}
    {step : EStateM Error Progress Bool}
    (tracks : Tracks isTraced progress visited (verdict ∘ make) (notes ∘ make) step) :
    Tracks isTraced progress (visited.map make) verdict notes step := by
  cases visited with
  | error error => exact tracks
  | ok visit => exact tracks

/-- A step may begin with one that adds notes. -/
theorem after
    {first : EStateM Error Progress β}
    {next : β → EStateM Error Progress Bool}
    {value : β}
    {early : Notes}
    (ran : first progress = .ok value (progress.extend isTraced early))
    {visited : Except Error α}
    {verdict : α → Bool}
    {notes : α → Notes}
    (tracks : Tracks isTraced (progress.extend isTraced early) visited verdict notes (next value)) :
    Tracks isTraced progress visited verdict (fun visit => early ++ notes visit)
      (first >>= next) := by
  cases visited with
  | error error =>
    obtain ⟨later, failed, sameStack⟩ := tracks
    exact ⟨later, (bind_apply_of_ok ran).trans failed, sameStack⟩
  | ok visit =>
    have finished : next value _ = .ok _ _ := tracks
    rw [Progress.extend_extend] at finished
    exact (bind_apply_of_ok ran).trans finished

/-- A step that begins with a failing one fails alike. -/
theorem of_error
    {first : EStateM Error Progress β}
    {next : β → EStateM Error Progress Bool}
    {error : Error}
    {verdict : α → Bool}
    {notes : α → Notes}
    (failed : ∃ later, first progress = .error error later ∧ later.stack = progress.stack) :
    Tracks isTraced progress (.error error) verdict notes (first >>= next) := by
  obtain ⟨later, ran, sameStack⟩ := failed
  exact ⟨later, bind_apply_of_error ran, sameStack⟩

end Tracks

namespace Leaf

theorem name_of_operator?
    {leaf : Leaf}
    {operator : Operator}
    (named : leaf.operator? = .ok operator) :
    operator.name = leaf.operator := by
  unfold operator? at named
  split at named
  · rename_i found
    exact Operator.name_of_ofName? (Except.ok.inj named ▸ found)
  · exact nomatch named

theorem evaluate_apply
    (executor : Executor)
    (address : String)
    (leaf : Leaf)
    (progress : Progress) :
    leaf.evaluate executor address progress =
      match leaf.matches? executor.facts with
      | .error error => .error error progress
      | .ok matched =>
        .ok matched (progress.extend executor.isTraced
          { lines := [Trace.line address (Trace.leafText leaf leaf.operator matched)] }) := by
  unfold evaluate matches?
  cases named : leaf.operator? with
  | error error => rfl
  | ok operator =>
    cases executor.facts.get leaf.fact leaf.path with
    | error error => rfl
    | ok fact =>
      rw [← name_of_operator? named]
      change EStateM.bind (MonadExcept.ofExcept (operator.evaluate fact leaf.value)) _ progress =
        match operator.evaluate fact leaf.value with
        | .error error => _
        | .ok matched => _
      cases operator.evaluate fact leaf.value with
      | error error => rfl
      | ok matched =>
        change (Progress.write executor.isTraced address _ >>= fun _ => pure matched) progress = _
        rw [bind_apply_of_ok (Progress.write_apply _ _ _ progress)]
        rfl

theorem evaluate_tracks
    (executor : Executor)
    (address : String)
    (leaf : Leaf)
    (progress : Progress) :
    Tracks executor.isTraced progress ((leaf.matches? executor.facts).map (Visit.leaf leaf))
      Visit.verdict (Visit.notes address) (leaf.evaluate executor address) := by
  apply Tracks.map
  have ran := leaf.evaluate_apply executor address progress
  cases matched : leaf.matches? executor.facts with
  | error error =>
    rw [matched] at ran
    exact ⟨progress, ran, rfl⟩
  | ok holds =>
    rw [matched] at ran
    exact ran

end Leaf

/-! ## Conditions -/

/-- The evaluation of a rule does what a visit to it shows: it comes to its report
and adds its lines to the trace. If the visit fails the evaluation fails alike, and
the stack is as before in either case. -/
def TracksRule (isTraced : Bool) (rule : Rule) (context : Context)
    (visited : Except Error Visit) (step : EStateM Error Context Evaluation) : Prop :=
  match visited with
  | .ok visit =>
    step context = .ok (.ofVisit rule false visit)
      { context with trace := context.trace ++ if isTraced then visit.trace rule.name else [] }
  | .error error =>
    ∃ later, step context = .error error later ∧ later.stack = context.stack

namespace Condition

variable
  {executor : Executor}
  {follow : Rule → EStateM Error Context Evaluation}
  {visitRule : Rule → Except Error Visit}
  {stack : List String}

/-- A reference does what the visit to the rule that it names shows. -/
theorem evaluateReference_tracks
    (followTracks : ∀ rule ∈ executor.registry.rules, ∀ context, context.stack = stack →
      TracksRule executor.isTraced rule context (visitRule rule) (follow rule))
    (name address : String)
    (progress : Progress)
    (atStack : progress.stack = stack) :
    Tracks executor.isTraced progress
      ((executor.registry.follow visitRule name).map (Visit.reference name))
      Visit.verdict (Visit.notes address) (evaluateReference executor follow address name) := by
  apply Tracks.map
  unfold evaluateReference Registry.follow
  cases found : executor.registry.get? name with
  | none => exact ⟨progress, rfl, rfl⟩
  | some rule =>
    obtain ⟨isRegistered, named⟩ := Registry.get?_eq_some_iff.1 found
    have depended := Progress.depend_apply executor.isTraced name progress
    have tracked := followTracks rule isRegistered
      (progress.extend executor.isTraced { asked := [name] }).toContext atStack
    simp only
    cases visited : visitRule rule with
    | error error =>
      rw [visited] at tracked
      obtain ⟨later, ran, sameStack⟩ := tracked
      have failed := Progress.outside_of_error ran
      exact ⟨_, (bind_apply_of_ok depended).trans (bind_apply_of_error failed), sameStack⟩
    | ok visit =>
      rw [visited] at tracked
      have asked := Progress.outside_of_ok tracked
      rw [named, ← Progress.extend_lines] at asked
      change (Progress.depend name >>= _) progress =
        .ok _ (progress.extend executor.isTraced ((Visit.reference name visit).notes address))
      rw [Visit.notes_reference, ← Progress.extend_extend, ← Progress.extend_extend,
        bind_apply_of_ok depended, bind_apply_of_ok asked,
        bind_apply_of_ok (Progress.write_apply _ _ _ _)]
      rfl

/-- The loop over clauses of which all must hold stops where the visit stops. -/
theorem evaluateAll_tracks
    (address : String)
    {clauses : List Clause}
    (clausesTrack : ∀ clause ∈ clauses, ∀ address progress, progress.stack = stack →
      Tracks executor.isTraced progress
        (clause.condition.visit executor.facts (executor.registry.follow visitRule))
        Visit.verdict (Visit.notes address)
        (clause.condition.evaluate executor follow address))
    (index : Nat)
    (last : Option Event)
    (progress : Progress)
    (atStack : progress.stack = stack) :
    Tracks executor.isTraced progress
      (visitUntil executor.facts (executor.registry.follow visitRule) false clauses)
      Visit.allHold (Visit.allNotes address index last)
      (evaluateAll executor follow address index last clauses) := by
  induction clauses generalizing index last progress with
  | nil =>
    rw [evaluateAll, visitUntil]
    change (Progress.replace last >>= _) progress =
      .ok true (progress.extend executor.isTraced (Visit.allNotes address index last []))
    rw [Visit.allNotes_nil, ← Progress.extend_extend,
      bind_apply_of_ok (Progress.replace_apply executor.isTraced last progress),
      bind_apply_of_ok (Progress.write_apply _ _ _ _)]
    rfl
  | cons clause rest inductionHypothesis =>
    have tracked := clausesTrack clause List.mem_cons_self
      (Trace.clauseAddress address "all" index) progress atStack
    obtain ⟨name, event, condition⟩ := clause
    rw [evaluateAll]
    cases visited : condition.visit executor.facts (executor.registry.follow visitRule) with
    | error error =>
      rw [visited] at tracked
      rw [visitUntil_of_error visited]
      exact Tracks.of_error tracked
    | ok visit =>
      rw [visited] at tracked
      have ran : condition.evaluate executor follow _ progress = .ok visit.verdict _ := tracked
      cases holds : visit.verdict with
      | false =>
        rw [holds] at ran
        rw [visitUntil_of_settled visited holds]
        change (condition.evaluate executor follow _ >>= _) progress =
          .ok (visit.verdict && true) (progress.extend executor.isTraced
            (Visit.allNotes address index last [⟨⟨name, event, condition⟩, visit⟩]))
        rw [Visit.allNotes_settled address index last _ holds, ← Progress.extend_extend,
          ← Progress.extend_extend, bind_apply_of_ok ran, holds]
        change (Progress.write executor.isTraced address _ >>= _) _ = _
        rw [bind_apply_of_ok (Progress.write_apply _ _ _ _),
          bind_apply_of_ok (Progress.record_apply executor.isTraced _ _)]
        rfl
      | true =>
        rw [holds] at ran
        have restTracks := inductionHypothesis
          (fun clause inRest => clausesTrack clause (List.mem_cons_of_mem _ inRest))
          (index + 1) event
          (progress.extend executor.isTraced
            (visit.notes (Trace.clauseAddress address "all" index)))
          atStack
        rw [visitUntil_of_open visited (by simp [holds])]
        apply Tracks.map
        have sameVerdict :
            Visit.allHold ∘ (⟨⟨name, event, condition⟩, visit⟩ :: ·) = Visit.allHold := by
          funext others
          simp [Visit.allHold, holds]
        have sameNotes := funext
          (Visit.allNotes_cons address index last ⟨⟨name, event, condition⟩, visit⟩ holds)
        rw [sameVerdict, Function.comp_def, sameNotes]
        exact Tracks.after ran restTracks

/-- The loop over clauses of which any must hold stops where the visit stops. -/
theorem evaluateAny_tracks
    (address : String)
    {clauses : List Clause}
    (clausesTrack : ∀ clause ∈ clauses, ∀ address progress, progress.stack = stack →
      Tracks executor.isTraced progress
        (clause.condition.visit executor.facts (executor.registry.follow visitRule))
        Visit.verdict (Visit.notes address)
        (clause.condition.evaluate executor follow address))
    (index : Nat)
    (progress : Progress)
    (atStack : progress.stack = stack) :
    Tracks executor.isTraced progress
      (visitUntil executor.facts (executor.registry.follow visitRule) true clauses)
      Visit.anyHolds (Visit.anyNotes address index)
      (evaluateAny executor follow address index clauses) := by
  induction clauses generalizing index progress with
  | nil =>
    rw [evaluateAny, visitUntil]
    change (Progress.write executor.isTraced address _ >>= _) progress =
      .ok false (progress.extend executor.isTraced (Visit.anyNotes address index []))
    rw [Visit.anyNotes_nil, bind_apply_of_ok (Progress.write_apply _ _ _ _)]
    rfl
  | cons clause rest inductionHypothesis =>
    have tracked := clausesTrack clause List.mem_cons_self
      (Trace.clauseAddress address "any" index) progress atStack
    obtain ⟨name, event, condition⟩ := clause
    rw [evaluateAny]
    cases visited : condition.visit executor.facts (executor.registry.follow visitRule) with
    | error error =>
      rw [visited] at tracked
      rw [visitUntil_of_error visited]
      exact Tracks.of_error tracked
    | ok visit =>
      rw [visited] at tracked
      have ran : condition.evaluate executor follow _ progress = .ok visit.verdict _ := tracked
      cases holds : visit.verdict with
      | false =>
        rw [holds] at ran
        have restTracks := inductionHypothesis
          (fun clause inRest => clausesTrack clause (List.mem_cons_of_mem _ inRest))
          (index + 1)
          ((progress.extend executor.isTraced
            (visit.notes (Trace.clauseAddress address "any" index))).extend executor.isTraced
              { failed := [⟨name, event, condition⟩] })
          atStack
        rw [visitUntil_of_open visited (by simp [holds])]
        apply Tracks.map
        have sameVerdict :
            Visit.anyHolds ∘ (⟨⟨name, event, condition⟩, visit⟩ :: ·) = Visit.anyHolds := by
          funext others
          simp [Visit.anyHolds, holds]
        have sameNotes := funext
          (Visit.anyNotes_cons address index ⟨⟨name, event, condition⟩, visit⟩ holds)
        rw [sameVerdict, Function.comp_def, sameNotes]
        exact Tracks.after ran
          (Tracks.after (Progress.record_apply executor.isTraced _ _) restTracks)
      | true =>
        rw [holds] at ran
        rw [visitUntil_of_settled visited holds]
        change (condition.evaluate executor follow _ >>= _) progress =
          .ok (visit.verdict || false) (progress.extend executor.isTraced
            (Visit.anyNotes address index [⟨⟨name, event, condition⟩, visit⟩]))
        rw [Visit.anyNotes_settled address index _ holds, ← Progress.extend_extend,
          ← Progress.extend_extend, bind_apply_of_ok ran, holds]
        change (Progress.replace event >>= _) _ = _
        rw [bind_apply_of_ok (Progress.replace_apply executor.isTraced _ _),
          bind_apply_of_ok (Progress.write_apply _ _ _ _)]
        rfl

theorem evaluate_tracks
    (followTracks : ∀ rule ∈ executor.registry.rules, ∀ context, context.stack = stack →
      TracksRule executor.isTraced rule context (visitRule rule) (follow rule))
    (condition : Condition)
    (address : String)
    (progress : Progress)
    (atStack : progress.stack = stack) :
    Tracks executor.isTraced progress
      (condition.visit executor.facts (executor.registry.follow visitRule))
      Visit.verdict (Visit.notes address) (condition.evaluate executor follow address) := by
  induction condition generalizing address progress with
  | all clauses clausesTrack =>
    rw [visit, evaluate]
    apply Tracks.map
    have sameNotes := funext (Visit.notes_all address)
    rw [Function.comp_def, Function.comp_def, sameNotes]
    exact evaluateAll_tracks address
      (fun clause member address progress => clausesTrack clause member address progress)
      0 none progress atStack
  | any clauses clausesTrack =>
    rw [visit, evaluate]
    apply Tracks.map
    have sameNotes := funext (Visit.notes_any address)
    rw [Function.comp_def, Function.comp_def, sameNotes]
    exact evaluateAny_tracks address
      (fun clause member address progress => clausesTrack clause member address progress)
      0 progress atStack
  | not child inductionHypothesis =>
    rw [visit, evaluate]
    apply Tracks.map
    have tracked := inductionHypothesis (Trace.childAddress address) progress atStack
    cases visited : child.visit executor.facts (executor.registry.follow visitRule) with
    | error error =>
      rw [visited] at tracked
      exact Tracks.of_error tracked
    | ok inner =>
      rw [visited] at tracked
      change (child.evaluate executor follow _ >>= _) progress =
        .ok _ (progress.extend executor.isTraced ((Visit.not inner).notes address))
      rw [Visit.notes_not, ← Progress.extend_extend, bind_apply_of_ok tracked,
        bind_apply_of_ok (Progress.write_apply _ _ _ _)]
      rfl
  | reference name =>
    rw [visit, evaluate]
    exact evaluateReference_tracks followTracks name address progress atStack
  | leaf comparison =>
    rw [visit, evaluate]
    exact comparison.evaluate_tracks executor address progress

end Condition

/-! ## Rules -/

namespace Context

theorem enter_of_mem
    {context : Context}
    {name : String}
    (entered : name ∈ context.stack)
    (limit : Nat) :
    enter limit name context =
      .error (.circularReference (context.stack.dropWhile (· != name) ++ [name])) context := by
  change (if name ∈ context.stack then _ else _ : EStateM Error Context Unit) context = _
  rw [if_pos entered]
  rfl

theorem enter_of_full
    {context : Context}
    {name : String}
    {limit : Nat}
    (isNew : name ∉ context.stack)
    (full : limit ≤ context.stack.length) :
    enter limit name context =
      .error (.depthExceeded (context.stack.length + 1) limit) context := by
  change (if name ∈ context.stack then _ else _ : EStateM Error Context Unit) context = _
  rw [if_neg isNew, if_pos full]
  rfl

theorem enter_of_room
    {context : Context}
    {name : String}
    {limit : Nat}
    (isNew : name ∉ context.stack)
    (room : ¬limit ≤ context.stack.length) :
    enter limit name context = .ok () { context with stack := context.stack ++ [name] } := by
  change (if name ∈ context.stack then _ else _ : EStateM Error Context Unit) context = _
  rw [if_neg isNew, if_neg room]
  rfl

end Context

namespace Progress

/-- Noting rules one by one lists them without repetition. -/
theorem foldl_noted (asked known : List String) :
    asked.foldl noted known = known ++ (asked.removeAll known).eraseDups := by
  induction asked generalizing known with
  | nil => simp
  | cons rule rest inductionHypothesis =>
    rw [List.foldl_cons, inductionHypothesis, noted]
    by_cases isKnown : rule ∈ known
    · simp [List.removeAll, isKnown]
    · have sameRest : rest.removeAll (known ++ [rule]) =
          (rest.removeAll known).filter fun other => !other == rule := by
        simp only [List.removeAll, List.filter_filter]
        refine List.filter_congr fun other _ => ?_
        by_cases same : other = rule <;> simp [same]
      have ruleRemains : (rule :: rest).removeAll known = rule :: rest.removeAll known := by
        simp [List.removeAll, isKnown]
      rw [if_neg isKnown, sameRest, ruleRemains, List.eraseDups_cons, List.append_assoc]
      rfl

/-- Rules that are noted one after the other stay in the order of their first notes. -/
theorem foldl_noted_nil (asked : List String) : asked.foldl noted [] = asked.eraseDups := by
  have nothingRemoved : asked.removeAll [] = asked := List.filter_eq_self.2 (by simp)
  rw [foldl_noted, nothingRemoved, List.nil_append]

theorem inside_of_ok
    {step : EStateM Error Progress α}
    {context : Context}
    {value : α}
    {progress : Progress}
    (ran : step { context with } = .ok value progress) :
    inside step context = .ok (value, progress.toScratch) progress.leave := by
  simp [inside, ran]

theorem inside_of_error
    {step : EStateM Error Progress α}
    {context : Context}
    {error : Error}
    {progress : Progress}
    (failed : step { context with } = .error error progress) :
    inside step context = .error error progress.leave := by
  simp [inside, failed]

end Progress

/-- The notes on a rule that was visited give the report of the visit. -/
theorem Rule.evaluation_extend
    (rule : Rule)
    (context : Context)
    (isTraced : Bool)
    (visit : Visit) :
    rule.evaluation visit.verdict
        (Progress.extend { context with } isTraced (visit.notes rule.name)).toScratch =
      .ofVisit rule false visit := by
  simp [evaluation, Evaluation.ofVisit, firedEvent, Progress.extend, Progress.foldl_noted_nil,
    Visit.notes]

namespace Executor

/-- A stack of distinct names, of registered rules or of the rule with which it began,
that is not longer than it may be. -/
structure Orderly (executor : Executor) (root : String) (stack : List String) : Prop where
  distinct : stack.Nodup
  known : stack ⊆ root :: executor.registry.names
  fits : stack.length ≤ executor.maxDepth

variable {executor : Executor} {root name : String} {stack : List String}

namespace Orderly

theorem nil : executor.Orderly root [] :=
  ⟨List.nodup_nil, List.nil_subset _, Nat.zero_le _⟩

/-- Another rule may be entered if it is not on the stack and there is room for it. -/
theorem enter
    (orderly : executor.Orderly root stack)
    (known : name ∈ root :: executor.registry.names)
    (isNew : name ∉ stack)
    (room : ¬executor.maxDepth ≤ stack.length) :
    executor.Orderly root (stack ++ [name]) where
  distinct := List.concat_eq_append ▸ List.Nodup.concat isNew orderly.distinct
  known := List.append_subset.2 ⟨orderly.known, List.cons_subset.2 ⟨known, List.nil_subset _⟩⟩
  fits := by
    rw [List.length_append, List.length_singleton]
    exact Nat.not_le.1 room

/-- There are no more names on a stack than rules and the one with which it began,
whatever the limit is. -/
theorem length_le
    (orderly : executor.Orderly root stack) :
    stack.length ≤ min executor.maxDepth (executor.registry.size + 1) := by
  have shorter := (List.subperm_of_subset orderly.distinct orderly.known).length_le
  rw [List.length_cons, Registry.names, List.length_map] at shorter
  exact Nat.le_min.2 ⟨orderly.fits, shorter⟩

end Orderly

/-- A rule that is evaluated within the bound does what the visit to it shows. The bound
need not be larger than the stack can grow. -/
theorem evaluateRule_tracks
    (bound : Nat)
    (rule : Rule)
    (context : Context)
    (known : rule.name ∈ root :: executor.registry.names)
    (orderly : executor.Orderly root context.stack)
    (enough : min executor.maxDepth (executor.registry.size + 1) < context.stack.length + bound) :
    TracksRule executor.isTraced rule context (executor.visitFrom context.stack rule)
      (executor.evaluateRule bound rule) := by
  -- each rule that is entered takes one from the bound and adds one to the stack
  induction bound generalizing rule context with
  | zero => exact absurd enough (Nat.not_lt.2 orderly.length_le)
  | succ bound inductionHypothesis =>
    rw [visitFrom, evaluateRule]
    by_cases entered : rule.name ∈ context.stack
    · rw [if_pos entered]
      exact ⟨context, bind_apply_of_error (Context.enter_of_mem entered _), rfl⟩
    · rw [if_neg entered]
      by_cases full : executor.maxDepth ≤ context.stack.length
      · rw [if_pos full]
        exact ⟨context, bind_apply_of_error (Context.enter_of_full entered full), rfl⟩
      · rw [if_neg full]
        have entering := Context.enter_of_room entered full
        have followTracks : ∀ other ∈ executor.registry.rules, ∀ inner,
            inner.stack = context.stack ++ [rule.name] →
            TracksRule executor.isTraced other inner
              (executor.visitFrom (context.stack ++ [rule.name]) other)
              (executor.evaluateRule bound other) := by
          intro other isRegistered inner sameStack
          have longer : inner.stack.length = context.stack.length + 1 := by simp [sameStack]
          have otherKnown : other.name ∈ root :: executor.registry.names :=
            List.mem_cons_of_mem root (List.mem_map_of_mem isRegistered)
          rw [← sameStack]
          exact inductionHypothesis other inner otherKnown
            (sameStack ▸ orderly.enter known entered full) (by omega)
        have tracked := Condition.evaluate_tracks followTracks rule.condition rule.name
          { stack := context.stack ++ [rule.name], trace := context.trace } rfl
        cases visited : rule.condition.visit executor.facts
            (executor.registry.follow (executor.visitFrom (context.stack ++ [rule.name]))) with
        | error error =>
          rw [visited] at tracked
          obtain ⟨later, ran, sameStack⟩ := tracked
          have left : later.leave.stack = context.stack := by
            rw [Context.leave, sameStack, List.dropLast_concat]
          exact ⟨later.leave, (bind_apply_of_ok entering).trans
            (bind_apply_of_error (Progress.inside_of_error ran)), left⟩
        | ok visit =>
          rw [visited] at tracked
          have ran := Progress.inside_of_ok tracked
          rw [Context.leave, Progress.stack_extend, List.dropLast_concat] at ran
          refine (bind_apply_of_ok entering).trans ((bind_apply_of_ok ran).trans ?_)
          exact congrArg (EStateM.Result.ok · _) (rule.evaluation_extend _ _ visit)

/-- An execution with a bound of its own on the rules that are evaluated one inside the
other. -/
def executeWithin (executor : Executor) (bound : Nat) (rule : Rule) : Except Error Evaluation :=
  match executor.evaluateRule bound rule {} with
  | .ok evaluation context => .ok { evaluation with trace := context.trace }
  | .error error _ => .error error

theorem execute_eq_executeWithin (executor : Executor) (rule : Rule) :
    executor.execute rule = executor.executeWithin (executor.maxDepth + 1) rule :=
  rfl

/-- An execution within a large enough bound comes to what the visit to the rule shows,
and fails as it does. -/
theorem executeWithin_eq_visit
    {bound : Nat}
    (enough : min executor.maxDepth (executor.registry.size + 1) < bound)
    (rule : Rule) :
    executor.executeWithin bound rule =
      (executor.visit rule).map (Evaluation.ofVisit rule executor.isTraced) := by
  have tracked := evaluateRule_tracks bound rule {} List.mem_cons_self Orderly.nil
    (by simpa using enough)
  unfold executeWithin visit
  cases visited : executor.visitFrom [] rule with
  | error error =>
    rw [visited] at tracked
    obtain ⟨later, ran, sameStack⟩ := tracked
    rw [ran]
    rfl
  | ok visit =>
    rw [visited] at tracked
    have ran : executor.evaluateRule bound rule {} = .ok _ _ := tracked
    rw [ran]
    rfl

/-- An execution comes to what the visit to the rule shows, and fails as it does. -/
theorem execute_eq_visit (executor : Executor) (rule : Rule) :
    executor.execute rule =
      (executor.visit rule).map (Evaluation.ofVisit rule executor.isTraced) := by
  rw [execute_eq_executeWithin]
  exact executeWithin_eq_visit (Nat.lt_succ_of_le (Nat.min_le_left _ _)) rule

/-- An execution that succeeds shows a visit to the condition of the rule, for which there was
room. -/
theorem exists_visit_of_execute
    {executor : Executor}
    {rule : Rule}
    {evaluation : Evaluation}
    (executed : executor.execute rule = .ok evaluation) :
    ¬executor.maxDepth ≤ 0 ∧ ∃ visit, executor.visit rule = .ok visit ∧
      rule.condition.visit executor.facts
        (executor.registry.follow (executor.visitFrom [rule.name])) = .ok visit ∧
      evaluation = .ofVisit rule executor.isTraced visit := by
  rw [execute_eq_visit] at executed
  obtain ⟨visit, visited, rfl⟩ := exists_of_map executed
  have room := (room_of_visitFrom visited).2
  exact ⟨room, visit, visited, (visit_of_room room rule).symm.trans visited, rfl⟩

/-- Where there is room for a rule whose condition is visited, the execution succeeds. -/
theorem execute_of_visit
    {executor : Executor}
    {rule : Rule}
    {visit : Visit}
    (room : ¬executor.maxDepth ≤ 0)
    (visited : rule.condition.visit executor.facts
      (executor.registry.follow (executor.visitFrom [rule.name])) = .ok visit) :
    executor.execute rule = .ok (.ofVisit rule executor.isTraced visit) := by
  rw [execute_eq_visit, visit_of_room room, visited]
  rfl

end Executor

end Verdict
