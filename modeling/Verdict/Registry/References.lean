import Verdict.Registry

/-!
# References between rules

Every reference must lead to a registered rule, and no chain of references may
come back to a rule on it. The check walks along the references from each rule
in turn, and enters no rule twice.

A rule is unvisited until it is entered, it is in progress and on the path while
the rules to which it refers are walked, and it is done afterwards.
-/

namespace Verdict

/-- How far a walk has come with a rule. -/
inductive Mark where
  | unvisited
  | inProgress
  | done
  deriving DecidableEq

/-- Where a walk stands: a mark for each rule, and the path of rules to here. -/
structure Walk (count : Nat) where
  marks : Vector Mark count
  path : List (Fin count)

namespace Walk

variable {count : Nat}

/-- A walk that has not entered any rule. -/
def start (count : Nat) : Walk count :=
  ⟨.replicate count .unvisited, []⟩

/-- The mark of a rule. -/
def mark (walk : Walk count) (place : Fin count) : Mark :=
  walk.marks[place]

/-- The number of rules that are yet to be entered. -/
def remaining (walk : Walk count) : Nat :=
  walk.marks.count .unvisited

/-- Goes on to a rule. -/
def enter (walk : Walk count) (place : Fin count) : Walk count :=
  ⟨walk.marks.set place .inProgress, walk.path ++ [place]⟩

/-- Goes back from a rule for good. -/
def leave (walk : Walk count) (place : Fin count) : Walk count :=
  ⟨walk.marks.set place .done, walk.path.dropLast⟩

/-- The part of the path from a rule on, and that rule again. -/
def cycle (walk : Walk count) (place : Fin count) : List (Fin count) :=
  walk.path.drop ((walk.path.findIdx? (· == place)).getD 0) ++ [place]

theorem remaining_enter_lt
    {walk : Walk count}
    {place : Fin count}
    (unvisited : walk.mark place = .unvisited) :
    (walk.enter place).remaining < walk.remaining := by
  have positive : 0 < walk.marks.count .unvisited :=
    Vector.count_pos_iff.2 (unvisited ▸ Vector.getElem_mem place.2)
  have marked : walk.marks[place.1] = .unvisited := unvisited
  have counted : (walk.enter place).remaining = walk.remaining - 1 + 0 := by
    rw [remaining, enter, Vector.count_set, marked]
    rfl
  rw [counted, remaining]
  omega

theorem remaining_leave_le
    (walk : Walk count)
    (place : Fin count) :
    (walk.leave place).remaining ≤ walk.remaining := by
  have counted : (walk.leave place).remaining ≤ walk.remaining + 0 := by
    rw [remaining, leave, Vector.count_set]
    exact Nat.add_le_add_right (Nat.sub_le _ _) _
  exact counted

end Walk

/-- A walk that goes on from another one enters none of its rules again. -/
abbrev Walk.Onward {count : Nat} (walk : Walk count) :=
  { after : Walk count // after.remaining ≤ walk.remaining }

namespace Registry

/-- The place of the rule of a name. -/
def place? (registry : Registry) (name : String) : Option (Fin registry.size) :=
  match found : registry.indexOf? name with
  | some place => some ⟨place, lt_size_of_indexOf? found⟩
  | none => none

/-- The rule at a place. -/
def ruleAt (registry : Registry) (place : Fin registry.size) : Rule :=
  registry.rules.get place

mutual

/-- Walks along the references from the rule at a place. -/
def walkFrom (registry : Registry) (walk : Walk registry.size) (place : Fin registry.size) :
    Except Error walk.Onward :=
  match marked : walk.mark place with
  | .done => .ok ⟨walk, Nat.le_refl _⟩
  | .inProgress =>
    .error (.circularReference ((walk.cycle place).map fun other => (registry.ruleAt other).name))
  | .unvisited => do
    have entering := Walk.remaining_enter_lt marked
    let inside ← registry.walkAll (walk.enter place) (registry.ruleAt place).references
    return ⟨inside.1.leave place, by
      have leaving := inside.1.remaining_leave_le place
      have within := inside.2
      omega⟩
termination_by (walk.remaining, 0)

/-- Walks along the references from the rules of several names. -/
def walkAll (registry : Registry) (walk : Walk registry.size) :
    (names : List String) → Except Error walk.Onward
  | [] => .ok ⟨walk, Nat.le_refl _⟩
  | name :: names =>
    match registry.place? name with
    | none => .error (.unknownRule name)
    | some place => do
      let between ← registry.walkFrom walk place
      let after ← registry.walkAll between.1 names
      return ⟨after.1, Nat.le_trans after.2 between.2⟩
termination_by names => (walk.remaining, names.length + 1)
decreasing_by
  · exact Prod.Lex.right _ (Nat.succ_pos _)
  · exact Prod.Lex.right' _ between.2 (Nat.lt_succ_self _)

end

/-- Walks along the references from the rules at several places. -/
def walkEach (registry : Registry) (places : List (Fin registry.size)) :
    Except Error (Walk registry.size) :=
  places.foldlM (fun walk place => (registry.walkFrom walk place).map Subtype.val)
    (Walk.start registry.size)

/-- Checks that every reference leads to a rule and that none closes a circle. -/
def validate (registry : Registry) : Except Error Unit :=
  (registry.walkEach (List.finRange registry.size)).map fun _ => ()

end Registry
end Verdict
