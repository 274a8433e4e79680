import Verdict.Proofs.Construction

/-!
# Legible explanations

An explanation leaves out some of a condition: the names and the events of clauses, what joins the
clauses of a group that has fewer than two, and whether a text is that of a leaf or the name of a
rule. What is left is the skeleton of the condition.

An explanation is a text with parentheses and with the words AND, OR and NOT. The text of a leaf
and the name of a rule stand in it as they are, so they may be mistaken for a part of it. Where none
of them has a parenthesis or one of the words AND and OR in it, the skeleton can be read off the
explanation, and conditions with the same explanation have the same skeleton.
-/

namespace Verdict

/-! ## Skeletons -/

/-- What joins the parts of a group. -/
inductive Connective where
  | and
  | or

namespace Connective

/-- The word between two parts. -/
def word : Connective → String
  | .and => "AND"
  | .or => "OR"

/-- What is written between two parts. -/
def separator (connective : Connective) : List Char :=
  ' ' :: (connective.word.toList ++ [' '])

theorem not_mem_word (connective : Connective) :
    ' ' ∉ connective.word.toList ∧ ')' ∉ connective.word.toList := by
  cases connective <;> decide

/-- What is written between two parts tells the connective. -/
theorem eq_of_separator_append
    {connective other : Connective}
    {rest otherRest : List Char}
    (same : connective.separator ++ rest = other.separator ++ otherRest) :
    connective = other ∧ rest = otherRest := by
  cases connective <;> cases other <;> simp_all [separator, word]

end Connective

/-- What an explanation shows of a condition. The connective of a group shows only if the group
has parts to join. -/
inductive Skeleton where
  | atom (text : String)
  | not (part : Skeleton)
  | group (connective : Option Connective) (parts : List Skeleton)

namespace Skeleton

/-- Induction on skeletons, with a hypothesis for every part of a group. -/
@[induction_eliminator]
theorem induction
    {motive : Skeleton → Prop}
    (atom : ∀ text, motive (.atom text))
    (not : ∀ part, motive part → motive (.not part))
    (group : ∀ connective parts, (∀ part ∈ parts, motive part) → motive (.group connective parts))
    (skeleton : Skeleton) :
    motive skeleton :=
  @Skeleton.rec motive (fun parts => ∀ part ∈ parts, motive part)
    atom not group nofun
    (fun _ _ ofFirst ofRest => List.forall_mem_cons.2 ⟨ofFirst, ofRest⟩)
    skeleton

/-- The skeleton of a group with these parts. -/
def ofParts (connective : Connective) (parts : List Skeleton) : Skeleton :=
  .group (if parts.length < 2 then none else some connective) parts

mutual

/-- The letters of a skeleton in an explanation. -/
def letters : Skeleton → List Char
  | .atom text => text.toList
  | .not part => "NOT ".toList ++ '(' :: (part.letters ++ [')'])
  | .group _ [] => ['(', ')']
  -- a group that shows no connective has nothing to join, so it does not matter which one is taken
  | .group connective (first :: rest) =>
    '(' :: (first.letters ++ furtherLetters (connective.getD .and) rest)

/-- The letters of a group behind one of its parts, with the further parts in it. -/
def furtherLetters (connective : Connective) : List Skeleton → List Char
  | [] => [')']
  | part :: rest => connective.separator ++ (part.letters ++ furtherLetters connective rest)

end

theorem letters_append_furtherLetters
    (connective : Connective)
    (first : Skeleton)
    (rest : List Skeleton) :
    first.letters ++ furtherLetters connective rest =
      connective.separator.intercalate ((first :: rest).map letters) ++ [')'] := by
  induction rest generalizing first with
  | nil => simp [furtherLetters]
  | cons second rest inductionHypothesis =>
    rw [furtherLetters, inductionHypothesis]
    simp only [List.map_cons, List.intercalate_cons_cons, List.append_assoc]

/-- A group is written with its connective between its parts, in parentheses. -/
theorem letters_ofParts (connective : Connective) (parts : List Skeleton) :
    (ofParts connective parts).letters =
      '(' :: (connective.separator.intercalate (parts.map letters) ++ [')']) := by
  cases parts with
  | nil => rfl
  | cons first rest =>
    rw [ofParts, letters, ← letters_append_furtherLetters]
    cases rest with
    | nil => rfl
    | cons second rest => rfl

end Skeleton

namespace Condition

mutual

/-- The skeleton of a condition. Like an explanation, it does not exist if an operator does not. -/
def skeleton : Condition → Except Error Skeleton
  | .all clauses => (clauseSkeletons clauses).map (.ofParts .and)
  | .any clauses => (clauseSkeletons clauses).map (.ofParts .or)
  | .not child => child.skeleton.map .not
  | .reference rule => .ok (.atom rule)
  | .leaf comparison => comparison.explain.map .atom

/-- The skeletons of the conditions of clauses, in order. -/
def clauseSkeletons : List Clause → Except Error (List Skeleton)
  | [] => .ok []
  | ⟨_, _, condition⟩ :: rest => do
    let first ← condition.skeleton
    let others ← clauseSkeletons rest
    return first :: others

end

theorem clauseSkeletons_eq_mapM (clauses : List Clause) :
    clauseSkeletons clauses = clauses.mapM fun clause => clause.condition.skeleton := by
  induction clauses with
  | nil => rfl
  | cons clause rest inductionHypothesis =>
    obtain ⟨name, event, condition⟩ := clause
    rw [clauseSkeletons, inductionHypothesis, List.mapM_cons]

theorem toList_group (separator : String) (parts : List String) :
    (group separator parts).toList =
      '(' :: (separator.toList.intercalate (parts.map String.toList) ++ [')']) := by
  rw [group, String.toList_append, String.toList_append, String.toList_intercalate]
  rfl

/-- A group is explained with the letters of its skeleton, if the conditions in it are. -/
theorem explainGroup_map_toList
    (connective : Connective)
    {separator : String}
    {clauses : List Clause}
    (separates : separator.toList = connective.separator)
    (inside : ∀ clause ∈ clauses, clause.condition.explain.map String.toList =
      clause.condition.skeleton.map Skeleton.letters) :
    ((explainClauses clauses).map (group separator)).map String.toList =
      ((clauseSkeletons clauses).map (.ofParts connective)).map Skeleton.letters := by
  have sameLetters := mapM_map_congr inside
  rw [← explainClauses_eq_mapM, ← clauseSkeletons_eq_mapM] at sameLetters
  obtain ⟨error, failed, failedToo⟩ | ⟨parts, texts, found, explained, same⟩ :=
    cases_of_map_eq sameLetters
  · rw [failed, failedToo]
    rfl
  · rw [found, explained]
    refine congrArg Except.ok ?_
    rw [toList_group, Skeleton.letters_ofParts, separates, same]

/-- A condition is explained with the letters of its skeleton. -/
theorem explain_map_toList (condition : Condition) :
    condition.explain.map String.toList = condition.skeleton.map Skeleton.letters := by
  induction condition with
  | leaf comparison => exact (map_map comparison.explain .atom Skeleton.letters).symm
  | reference rule => rfl
  | not child inductionHypothesis =>
    rw [explain, skeleton]
    obtain ⟨error, failed, failedToo⟩ | ⟨part, text, found, explained, same⟩ :=
      cases_of_map_eq inductionHypothesis
    · rw [failed, failedToo]
      rfl
    · rw [found, explained]
      refine congrArg Except.ok ?_
      rw [String.toList_append, String.toList_append, same]
      rfl
  | all clauses inductionHypothesis =>
    exact explainGroup_map_toList .and rfl inductionHypothesis
  | any clauses inductionHypothesis =>
    exact explainGroup_map_toList .or rfl inductionHypothesis

end Condition

/-! ## Plain texts -/

/-- A text that cannot be mistaken for the parentheses and the connectives of a group. -/
structure IsPlain (text : String) : Prop where
  opensNot : '(' ∉ text.toList
  closesNot : ')' ∉ text.toList
  joinsNot (connective : Connective) : ¬ connective.word.toList <:+: text.toList

/-- What may stand behind a part of a skeleton: nothing, the end of what it is in, or a further
part. -/
inductive Follows : List Char → Prop
  | nothing : Follows []
  | closed (rest : List Char) : Follows (')' :: rest)
  | joined (connective : Connective) (rest : List Char) : Follows (connective.separator ++ rest)

namespace Follows

theorem head_eq
    {letter : Char}
    {rest : List Char}
    (follows : Follows (letter :: rest)) :
    letter = ')' ∨ letter = ' ' := by
  generalize written : letter :: rest = letters at follows
  cases follows with
  | nothing => exact nomatch written
  | closed => exact .inl (List.cons.inj written).1
  | joined connective => exact .inr (List.cons.inj written).1

/-- What may stand behind a part does not open one, also behind letters of the word NOT. -/
theorem not_opening
    {opening rest : List Char}
    (isSuffix : opening <:+ ['N', 'O', 'T', ' ']) :
    ¬ Follows (opening ++ '(' :: rest) := by
  intro follows
  simp only [List.suffix_cons_iff, List.suffix_nil] at isSuffix
  rcases isSuffix with rfl | rfl | rfl | rfl | rfl
  · exact absurd follows.head_eq (by decide)
  · exact absurd follows.head_eq (by decide)
  · exact absurd follows.head_eq (by decide)
  · -- only here the first letter is right, but the second one is not that of a connective
    generalize written : [' '] ++ '(' :: rest = letters at follows
    cases follows with
    | nothing | closed => simp at written
    | joined connective =>
      cases connective <;> simp [Connective.separator, Connective.word] at written
  · exact absurd follows.head_eq (by decide)

end Follows

namespace IsPlain

variable {text other : String} {rest otherRest : List Char}

/-- The letters at the end of a plain text cannot be mistaken for what stands behind the text. -/
theorem eq_nil_of_suffix
    {ending : List Char}
    (plain : IsPlain text)
    (isSuffix : ending <:+ text.toList)
    (follows : Follows (ending ++ rest))
    (restFollows : Follows rest) :
    ending = [] := by
  cases ending with
  | nil => rfl
  | cons letter ending =>
    generalize written : letter :: ending ++ rest = letters at follows
    cases follows with
    | nothing => exact nomatch written
    | closed =>
      obtain ⟨rfl, _⟩ := List.cons.inj written
      exact absurd (isSuffix.subset List.mem_cons_self) plain.closesNot
    | joined connective behind =>
      have sameRest : ending ++ rest = connective.word.toList ++ ' ' :: behind := by
        simpa [Connective.separator] using (List.cons.inj written).2
      have noWord : ∀ more, ending ≠ connective.word.toList ++ more := by
        rintro more rfl
        exact plain.joinsNot connective
          (List.IsInfix.trans ⟨[letter], more, by simp⟩ isSuffix.isInfix)
      -- the word lies in the ending, or goes on behind it
      rcases List.append_eq_append_iff.1 sameRest with ⟨left, isWord, isRest⟩ | ⟨more, same, _⟩
      · cases left with
        | nil => exact absurd (by simpa using isWord.symm) (noWord [])
        | cons first left =>
          have inWord : first ∈ connective.word.toList :=
            isWord ▸ List.mem_append_right ending List.mem_cons_self
          obtain ⟨noBlank, noEnd⟩ := connective.not_mem_word
          rw [isRest] at restFollows
          rcases restFollows.head_eq with rfl | rfl
          · exact absurd inWord noEnd
          · exact absurd inWord noBlank
      · exact absurd same (noWord more)

/-- A plain text can be told from what stands behind it. -/
theorem eq_of_append
    (plain : IsPlain text)
    (otherPlain : IsPlain other)
    (follows : Follows rest)
    (otherFollows : Follows otherRest)
    (same : text.toList ++ rest = other.toList ++ otherRest) :
    text = other ∧ rest = otherRest := by
  rcases List.append_eq_append_iff.1 same with ⟨gap, isOther, rfl⟩ | ⟨gap, isText, rfl⟩
  · obtain rfl : gap = [] := otherPlain.eq_nil_of_suffix ⟨_, isOther.symm⟩ follows otherFollows
    exact ⟨String.toList_inj.1 (by simpa using isOther.symm), rfl⟩
  · obtain rfl : gap = [] := plain.eq_nil_of_suffix ⟨_, isText.symm⟩ otherFollows follows
    exact ⟨String.toList_inj.1 (by simpa using isText), rfl⟩

/-- A plain text cannot be mistaken for a negation or a group. -/
theorem not_opening
    {opening behind : List Char}
    (plain : IsPlain text)
    (follows : Follows rest)
    (isSuffix : opening <:+ ['N', 'O', 'T', ' ']) :
    text.toList ++ rest ≠ opening ++ '(' :: behind := by
  intro same
  rcases List.append_eq_append_iff.1 same with ⟨gap, isOpening, rfl⟩ | ⟨gap, isText, isBehind⟩
  · exact Follows.not_opening (List.IsSuffix.trans ⟨_, isOpening.symm⟩ isSuffix) follows
  · cases gap with
    | nil =>
      rw [← (show '(' :: behind = rest from isBehind)] at follows
      exact Follows.not_opening List.nil_suffix follows
    | cons letter gap =>
      obtain ⟨rfl, _⟩ := List.cons.inj isBehind
      exact plain.opensNot (isText ▸ List.mem_append_right opening List.mem_cons_self)

end IsPlain

/-! ## Skeletons read off their letters -/

namespace Skeleton

/-- A skeleton with plain texts that are not empty, and with a connective where there is something
to join. -/
inductive IsLegible : Skeleton → Prop
  | atom {text : String} : text ≠ "" → IsPlain text → IsLegible (.atom text)
  | not {part : Skeleton} : part.IsLegible → IsLegible (.not part)
  | group {connective : Option Connective} {parts : List Skeleton} :
    (connective.isSome ↔ 2 ≤ parts.length) → (∀ part ∈ parts, part.IsLegible) →
      IsLegible (.group connective parts)

theorem IsLegible.ofParts
    {connective : Connective}
    {parts : List Skeleton}
    (legible : ∀ part ∈ parts, part.IsLegible) :
    (ofParts connective parts).IsLegible := by
  refine .group ?_ legible
  split <;> simp <;> omega

/-- A part does not start with the end of the group that it is in. -/
theorem IsLegible.not_closed
    {skeleton : Skeleton}
    {rest behind : List Char}
    (legible : skeleton.IsLegible) :
    skeleton.letters ++ rest ≠ ')' :: behind := by
  intro same
  cases legible with
  | @atom text present plain =>
    rw [letters] at same
    cases written : text.toList with
    | nil => exact present (String.toList_eq_nil_iff.1 written)
    | cons letter letters =>
      rw [written] at same
      obtain ⟨rfl, _⟩ := List.cons.inj same
      exact plain.closesNot (written ▸ List.mem_cons_self)
  | not => simp [letters] at same
  | @group connective parts =>
    cases parts with
    | nil | cons => simp [letters] at same

theorem follows_furtherLetters
    (connective : Connective)
    (parts : List Skeleton)
    (rest : List Char) :
    Follows (furtherLetters connective parts ++ rest) := by
  cases parts with
  | nil => exact .closed rest
  | cons part parts =>
    rw [furtherLetters, List.append_assoc]
    exact .joined connective _

/-- A skeleton that can be told from what stands behind it. -/
def IsReadOff (skeleton : Skeleton) : Prop :=
  ∀ other rest otherRest, skeleton.IsLegible → other.IsLegible → Follows rest → Follows otherRest →
    skeleton.letters ++ rest = other.letters ++ otherRest → skeleton = other ∧ rest = otherRest

/-- The further parts of a group can be told from each other, and from what stands behind it. -/
theorem eq_of_furtherLetters_append
    {connective otherConnective : Connective}
    {parts others : List Skeleton}
    {rest otherRest : List Char}
    (readOff : ∀ part ∈ parts, part.IsReadOff)
    (legible : ∀ part ∈ parts, part.IsLegible)
    (othersLegible : ∀ part ∈ others, part.IsLegible)
    (same : furtherLetters connective parts ++ rest =
      furtherLetters otherConnective others ++ otherRest) :
    parts = others ∧ (parts ≠ [] → connective = otherConnective) ∧ rest = otherRest := by
  induction parts generalizing others with
  | nil =>
    cases others with
    | nil => exact ⟨rfl, fun present => absurd rfl present, (List.cons.inj same).2⟩
    | cons => simp [furtherLetters, Connective.separator] at same
  | cons part parts inductionHypothesis =>
    cases others with
    | nil => simp [furtherLetters, Connective.separator] at same
    | cons other others =>
      rw [furtherLetters, furtherLetters] at same
      simp only [List.append_assoc] at same
      obtain ⟨rfl, sameParts⟩ := Connective.eq_of_separator_append same
      obtain ⟨readOffFirst, readOffRest⟩ := List.forall_mem_cons.1 readOff
      obtain ⟨legibleFirst, legibleRest⟩ := List.forall_mem_cons.1 legible
      obtain ⟨otherLegible, otherLegibleRest⟩ := List.forall_mem_cons.1 othersLegible
      obtain ⟨rfl, sameRest⟩ := readOffFirst other _ _ legibleFirst otherLegible
        (follows_furtherLetters _ _ _) (follows_furtherLetters _ _ _) sameParts
      obtain ⟨rfl, _, rfl⟩ := inductionHypothesis readOffRest legibleRest otherLegibleRest sameRest
      exact ⟨rfl, fun _ => rfl, rfl⟩

theorem letters_not_append (part : Skeleton) (rest : List Char) :
    (not part).letters ++ rest =
      ['N', 'O', 'T', ' '] ++ '(' :: (part.letters ++ ')' :: rest) := by
  simp [letters]

theorem exists_letters_group_append
    (connective : Option Connective)
    (parts : List Skeleton)
    (rest : List Char) :
    ∃ behind, (group connective parts).letters ++ rest = '(' :: behind := by
  cases parts with
  | nil | cons => exact ⟨_, rfl⟩

/-- A plain text can be told from all other skeletons. -/
theorem eq_of_atom_append
    {text : String}
    {other : Skeleton}
    {rest otherRest : List Char}
    (plain : IsPlain text)
    (otherLegible : other.IsLegible)
    (follows : Follows rest)
    (otherFollows : Follows otherRest)
    (same : text.toList ++ rest = other.letters ++ otherRest) :
    atom text = other ∧ rest = otherRest := by
  cases otherLegible with
  | atom _ otherPlain =>
    obtain ⟨rfl, rfl⟩ := plain.eq_of_append otherPlain follows otherFollows same
    exact ⟨rfl, rfl⟩
  | not =>
    rw [letters_not_append] at same
    exact absurd same (plain.not_opening follows List.suffix_rfl)
  | @group connective parts =>
    obtain ⟨behind, opens⟩ := exists_letters_group_append connective parts otherRest
    exact absurd (same.trans opens) (plain.not_opening follows List.nil_suffix)

/-- The connective of a group can be told if there is something that it joins. -/
theorem connective_eq
    {connective other : Option Connective}
    {parts : List Skeleton}
    (shown : connective.isSome ↔ 2 ≤ parts.length)
    (otherShown : other.isSome ↔ 2 ≤ parts.length)
    (same : 2 ≤ parts.length → connective.getD .and = other.getD .and) :
    connective = other := by
  rw [← shown] at otherShown same
  cases connective <;> cases other <;> simp_all

/-- Groups with the same letters have the same parts, and the same connective if it shows. -/
theorem eq_of_group_append
    {connective otherConnective : Option Connective}
    {parts others : List Skeleton}
    {rest otherRest : List Char}
    (readOff : ∀ part ∈ parts, part.IsReadOff)
    (shown : connective.isSome ↔ 2 ≤ parts.length)
    (otherShown : otherConnective.isSome ↔ 2 ≤ others.length)
    (legible : ∀ part ∈ parts, part.IsLegible)
    (othersLegible : ∀ part ∈ others, part.IsLegible)
    (same : (group connective parts).letters ++ rest =
      (group otherConnective others).letters ++ otherRest) :
    group connective parts = group otherConnective others ∧ rest = otherRest := by
  cases parts with
  | nil =>
    cases others with
    | nil =>
      obtain rfl := connective_eq shown otherShown nofun
      exact ⟨rfl, by simpa [letters] using same⟩
    | cons other others =>
      have otherLegible := (List.forall_mem_cons.1 othersLegible).1
      simp only [letters, List.cons_append, List.cons.injEq, true_and, List.append_assoc] at same
      exact absurd same.symm otherLegible.not_closed
  | cons part parts =>
    obtain ⟨partLegible, legibleRest⟩ := List.forall_mem_cons.1 legible
    cases others with
    | nil =>
      simp only [letters, List.cons_append, List.cons.injEq, true_and, List.append_assoc] at same
      exact absurd same partLegible.not_closed
    | cons other others =>
      obtain ⟨otherLegible, otherLegibleRest⟩ := List.forall_mem_cons.1 othersLegible
      obtain ⟨readOffFirst, readOffRest⟩ := List.forall_mem_cons.1 readOff
      simp only [letters, List.cons_append, List.cons.injEq, true_and, List.append_assoc] at same
      obtain ⟨rfl, sameFurther⟩ := readOffFirst other _ _ partLegible otherLegible
        (follows_furtherLetters _ _ _) (follows_furtherLetters _ _ _) same
      obtain ⟨rfl, sameConnective, rfl⟩ :=
        eq_of_furtherLetters_append readOffRest legibleRest otherLegibleRest sameFurther
      have present : 2 ≤ (part :: parts).length → parts ≠ [] := by
        rintro several rfl
        exact absurd several (by simp)
      obtain rfl := connective_eq shown otherShown fun several => sameConnective (present several)
      exact ⟨rfl, rfl⟩

/-- A legible skeleton can be told from what stands behind it. -/
theorem isReadOff (skeleton : Skeleton) : skeleton.IsReadOff := by
  induction skeleton with
  | atom text =>
    intro other rest otherRest legible otherLegible follows otherFollows same
    cases legible with
    | atom _ plain => exact eq_of_atom_append plain otherLegible follows otherFollows same
  | not part inductionHypothesis =>
    intro other rest otherRest legible otherLegible follows otherFollows same
    cases otherLegible with
    | atom _ otherPlain =>
      obtain ⟨isOther, isRest⟩ :=
        eq_of_atom_append otherPlain legible otherFollows follows same.symm
      exact ⟨isOther.symm, isRest.symm⟩
    | @not other otherLegible =>
      cases legible with
      | not legible =>
        rw [letters_not_append, letters_not_append, List.append_cancel_left_eq,
          List.cons.injEq] at same
        obtain ⟨rfl, sameRest⟩ := inductionHypothesis other _ _ legible otherLegible
          (.closed rest) (.closed otherRest) same.2
        exact ⟨rfl, (List.cons.inj sameRest).2⟩
    | @group connective parts =>
      obtain ⟨behind, opens⟩ := exists_letters_group_append connective parts otherRest
      rw [letters_not_append, opens] at same
      simp at same
  | group connective parts inductionHypothesis =>
    intro other rest otherRest legible otherLegible follows otherFollows same
    obtain ⟨behind, opens⟩ := exists_letters_group_append connective parts rest
    cases otherLegible with
    | atom _ otherPlain =>
      obtain ⟨isOther, isRest⟩ :=
        eq_of_atom_append otherPlain legible otherFollows follows same.symm
      exact ⟨isOther.symm, isRest.symm⟩
    | not =>
      rw [letters_not_append, opens] at same
      simp at same
    | @group otherConnective others otherShown otherLegible =>
      cases legible with
      | group shown legible =>
        exact eq_of_group_append inductionHypothesis shown otherShown legible otherLegible same

/-- Legible skeletons with the same letters are the same. -/
theorem eq_of_letters_eq
    {skeleton other : Skeleton}
    (legible : skeleton.IsLegible)
    (otherLegible : other.IsLegible)
    (same : skeleton.letters = other.letters) :
    skeleton = other :=
  (skeleton.isReadOff other [] [] legible otherLegible .nothing .nothing
    (congrArg (· ++ []) same)).1

end Skeleton

/-! ## Conditions with the same explanation -/

theorem Leaf.explain_ne_empty
    {leaf : Leaf}
    {text : String}
    (explained : leaf.explain = .ok text) :
    text ≠ "" := by
  rw [explain] at explained
  obtain ⟨operator, _, isText⟩ := bind_eq_ok_iff.1 explained
  rw [← Except.ok.inj isText]
  simp [String.append_eq_empty_iff]

namespace Condition

/-- Neither the text of a leaf of the condition nor the name of a rule to which it refers can be
mistaken for the parentheses and the connectives of a group. -/
structure IsLegible (condition : Condition) : Prop where
  leaves : ∀ comparison ∈ condition.leaves, ∀ text, comparison.explain = .ok text → IsPlain text
  references : ∀ name ∈ condition.references, IsPlain name

/-- The conditions of the clauses of a group are legible if the group is. -/
theorem IsLegible.of_mem
    {condition : Condition}
    {clauses : List Clause}
    {clause : Clause}
    (legible : condition.IsLegible)
    (areLeaves : condition.leaves = clauseLeaves clauses)
    (areReferences : condition.references = clauseReferences clauses)
    (member : clause ∈ clauses) :
    clause.condition.IsLegible where
  leaves comparison isLeaf := by
    refine legible.leaves comparison ?_
    rw [areLeaves, clauseLeaves_eq_flatMap]
    exact List.mem_flatMap_of_mem member isLeaf
  references name isReference := by
    refine legible.references name ?_
    rw [areReferences, clauseReferences_eq_flatMap]
    exact List.mem_flatMap_of_mem member isReference

theorem isLegible_clauseSkeletons
    {clauses : List Clause}
    {parts : List Skeleton}
    (inside : ∀ clause ∈ clauses, ∀ part, clause.condition.skeleton = .ok part → part.IsLegible)
    (found : clauseSkeletons clauses = .ok parts) :
    ∀ part ∈ parts, part.IsLegible := by
  rw [clauseSkeletons_eq_mapM] at found
  intro part member
  obtain ⟨clause, isClause, isPart⟩ := exists_of_mem_forall₂ (mapM_eq_ok_iff.1 found) member
  exact inside clause isClause part isPart

/-- The skeleton of a legible condition is legible, if the condition was made from a
specification. -/
theorem IsLegible.skeleton
    {condition : Condition}
    {skeleton : Skeleton}
    (legible : condition.IsLegible)
    (wellFormed : condition.WellFormed)
    (found : condition.skeleton = .ok skeleton) :
    skeleton.IsLegible := by
  induction condition generalizing skeleton with
  | leaf comparison =>
    obtain ⟨text, explained, rfl⟩ := exists_of_map found
    exact .atom (Leaf.explain_ne_empty explained)
      (legible.leaves comparison List.mem_cons_self text explained)
  | reference rule =>
    obtain rfl := Except.ok.inj found
    cases wellFormed with
    | reference named => exact .atom named (legible.references rule List.mem_cons_self)
  | not child inductionHypothesis =>
    obtain ⟨part, isPart, rfl⟩ := exists_of_map found
    cases wellFormed with
    | not _ childWellFormed =>
      exact .not (inductionHypothesis ⟨legible.leaves, legible.references⟩ childWellFormed isPart)
  | all clauses inductionHypothesis =>
    obtain ⟨parts, areParts, rfl⟩ := exists_of_map found
    cases wellFormed with
    | all clausesWellFormed =>
      refine .ofParts (isLegible_clauseSkeletons (fun clause member part isPart => ?_) areParts)
      exact inductionHypothesis clause member (legible.of_mem rfl rfl member)
        (clausesWellFormed clause member) isPart
  | any clauses inductionHypothesis =>
    obtain ⟨parts, areParts, rfl⟩ := exists_of_map found
    cases wellFormed with
    | any clausesWellFormed =>
      refine .ofParts (isLegible_clauseSkeletons (fun clause member part isPart => ?_) areParts)
      exact inductionHypothesis clause member (legible.of_mem rfl rfl member)
        (clausesWellFormed clause member) isPart

/-- An explanation determines the skeleton. Two conditions that are made from specifications, in
which no text of a leaf and no name of a rule has a parenthesis or one of the words AND and OR in
it, have the same skeleton if they have the same explanation: the same groups, negations and
texts, in the same places, and the same connective in each group of two clauses or more. -/
theorem skeleton_eq_of_explain_eq
    {spec otherSpec : ConditionSpec}
    {condition other : Condition}
    {text : String}
    (made : spec.toCondition = .ok condition)
    (otherMade : otherSpec.toCondition = .ok other)
    (legible : condition.IsLegible)
    (otherLegible : other.IsLegible)
    (explained : condition.explain = .ok text)
    (otherExplained : other.explain = .ok text) :
    ∃ skeleton, condition.skeleton = .ok skeleton ∧ other.skeleton = .ok skeleton := by
  have written : ∀ condition : Condition, condition.explain = .ok text →
      ∃ skeleton, condition.skeleton = .ok skeleton ∧ skeleton.letters = text.toList := by
    intro condition explained
    have same := condition.explain_map_toList
    rw [explained] at same
    exact exists_of_map same.symm
  obtain ⟨skeleton, found, isWritten⟩ := written condition explained
  obtain ⟨otherSkeleton, otherFound, otherIsWritten⟩ := written other otherExplained
  have same : skeleton = otherSkeleton :=
    Skeleton.eq_of_letters_eq
      (legible.skeleton (ConditionSpec.wellFormed_of_toCondition made) found)
      (otherLegible.skeleton (ConditionSpec.wellFormed_of_toCondition otherMade) otherFound)
      (isWritten.trans otherIsWritten.symm)
  exact ⟨skeleton, found, same ▸ otherFound⟩

/-- A leaf that compares a country. -/
def residence : Leaf where
  fact := "country"
  operator := "equal"
  value := .string "DE"

/-- A condition with a leaf in a group of its own. -/
def resident : Condition :=
  .any [.plain (.all [.plain (.leaf residence)]), .plain (.not (.reference "banned"))]

/-- A condition with the name of a rule in place of the leaf, in a group of the other kind. -/
def registered : Condition :=
  .any [⟨some "name", none, .any [.plain (.reference "country is equal to DE")]⟩,
    .plain (.not (.reference "banned"))]

/-- The two conditions have the same explanation and the same skeleton. -/
theorem skeleton_resident :
    resident.explain = .ok "((country is equal to DE) OR NOT (banned))" ∧
    registered.explain = .ok "((country is equal to DE) OR NOT (banned))" ∧
    ∃ skeleton, resident.skeleton = .ok skeleton ∧ registered.skeleton = .ok skeleton := by
  -- neither word can occur without its first letter
  have noLetter : ∀ text ∈ ["country is equal to DE", "banned"],
      ∀ letter ∈ ['(', ')', 'A', 'O'], letter ∉ text.toList := by simp
  have isPlain : ∀ text ∈ ["country is equal to DE", "banned"], IsPlain text := by
    intro text member
    have outside := noLetter text member
    refine ⟨outside _ (by simp), outside _ (by simp), fun connective inText => ?_⟩
    cases connective with
    | and => exact outside 'A' (by simp) (inText.subset List.mem_cons_self)
    | or => exact outside 'O' (by simp) (inText.subset List.mem_cons_self)
  have residentLegible : resident.IsLegible := by
    refine ⟨fun comparison isLeaf text explained => ?_, fun name isReference => ?_⟩
    · obtain rfl := List.mem_singleton.1 isLeaf
      obtain rfl := Except.ok.inj explained
      exact isPlain _ List.mem_cons_self
    · exact isPlain name (List.mem_cons_of_mem _ isReference)
  have registeredLegible : registered.IsLegible := ⟨nofun, isPlain⟩
  have explained : resident.explain = .ok "((country is equal to DE) OR NOT (banned))" := rfl
  have otherExplained : registered.explain = .ok "((country is equal to DE) OR NOT (banned))" :=
    rfl
  have made : (ConditionSpec.ofCondition resident).toCondition = .ok resident :=
    ConditionSpec.toCondition_ofCondition_eq_ok_iff.2 ⟨rfl, by decide⟩
  have otherMade : (ConditionSpec.ofCondition registered).toCondition = .ok registered :=
    ConditionSpec.toCondition_ofCondition_eq_ok_iff.2 ⟨rfl, by decide⟩
  exact ⟨explained, otherExplained, skeleton_eq_of_explain_eq made otherMade residentLegible
    registeredLegible explained otherExplained⟩

end Condition
end Verdict
