/-!
# Dictionaries

A dictionary keeps its entries in strictly increasing order of their keys, so
that equal dictionaries have equal entry lists. Keys are compared by code
points, which is also the order of their UTF-8 bytes.
-/

namespace Verdict

/-- A finite map from strings, held as entries in increasing order of keys. -/
structure Dictionary (α : Type) where
  entries : List (String × α)
  sorted : entries.Pairwise fun earlier later => earlier.1 < later.1

namespace Dictionary

variable {α : Type}

/-- The dictionary without entries. -/
def empty : Dictionary α :=
  ⟨[], .nil⟩

instance : EmptyCollection (Dictionary α) :=
  ⟨empty⟩

instance : Inhabited (Dictionary α) :=
  ⟨empty⟩

/-- Puts an entry in its place in an ordered list, over an entry of the same key. -/
def insertEntry (key : String) (value : α) : List (String × α) → List (String × α)
  | [] => [(key, value)]
  | entry :: rest =>
    if key < entry.1 then (key, value) :: entry :: rest
    else if key = entry.1 then (key, value) :: rest
    else entry :: insertEntry key value rest

theorem mem_insertEntry
    {key : String}
    {value : α}
    {entries : List (String × α)}
    {entry : String × α}
    (member : entry ∈ insertEntry key value entries) :
    entry = (key, value) ∨ entry ∈ entries := by
  induction entries with
  | nil => simpa [insertEntry] using member
  | cons first rest inductionHypothesis =>
    unfold insertEntry at member
    split at member
    · simpa using member
    · split at member
      · rcases List.mem_cons.1 member with equal | inRest
        · exact .inl equal
        · exact .inr (List.mem_cons_of_mem _ inRest)
      · rcases List.mem_cons.1 member with equal | inRest
        · exact .inr (equal ▸ List.mem_cons_self)
        · exact (inductionHypothesis inRest).imp_right (List.mem_cons_of_mem _)

/-- Keys in ascending order stay in ascending order, each of them once. -/
theorem sorted_insertEntry
    (key : String)
    (value : α)
    {entries : List (String × α)}
    (sorted : entries.Pairwise fun earlier later => earlier.1 < later.1) :
    (insertEntry key value entries).Pairwise fun earlier later => earlier.1 < later.1 := by
  induction sorted with
  | nil => simp [insertEntry]
  | @cons first rest below sortedRest inductionHypothesis =>
    unfold insertEntry
    split
    · rename_i before
      refine .cons (fun entry member => ?_) (.cons below sortedRest)
      rcases List.mem_cons.1 member with rfl | inRest
      · exact before
      · exact String.lt_trans before (below entry inRest)
    · rename_i notBefore
      split
      · rename_i equal
        exact .cons (fun entry member => equal ▸ below entry member) sortedRest
      · rename_i different
        refine .cons (fun entry member => ?_) inductionHypothesis
        rcases mem_insertEntry member with rfl | inRest
        · exact Std.lt_of_le_of_ne (String.not_lt.1 notBefore) (Ne.symm different)
        · exact below entry inRest

theorem lookup_cons_eq_ite
    (entry : String × α)
    (rest : List (String × α))
    (key : String) :
    (entry :: rest).lookup key = if key = entry.1 then some entry.2 else rest.lookup key := by
  obtain ⟨first, value⟩ := entry
  by_cases same : key = first
  · simp [same]
  · simp [List.lookup_cons, beq_false_of_ne same, same]

theorem lookup_insertEntry
    (key other : String)
    (value : α)
    (entries : List (String × α)) :
    (insertEntry key value entries).lookup other =
      if other = key then some value else entries.lookup other := by
  induction entries with
  | nil => rw [insertEntry, lookup_cons_eq_ite]
  | cons entry rest inductionHypothesis =>
    unfold insertEntry
    split
    · rw [lookup_cons_eq_ite]
    · split
      · rename_i equal
        by_cases same : other = key <;> simp [lookup_cons_eq_ite, same, ← equal]
      · rename_i different
        by_cases same : other = key
        · subst same
          simp [lookup_cons_eq_ite, inductionHypothesis, different]
        · simp [lookup_cons_eq_ite, inductionHypothesis, same]

/-- Adds an entry, or replaces the value of its key. -/
def insert (dictionary : Dictionary α) (key : String) (value : α) : Dictionary α :=
  ⟨insertEntry key value dictionary.entries, sorted_insertEntry key value dictionary.sorted⟩

/-- The value of a key. -/
def get? (dictionary : Dictionary α) (key : String) : Option α :=
  dictionary.entries.lookup key

/-- A key has the value that was inserted last, and all others have what they had. -/
theorem get?_insert
    (dictionary : Dictionary α)
    (key other : String)
    (value : α) :
    (dictionary.insert key value).get? other =
      if other = key then some value else dictionary.get? other :=
  lookup_insertEntry key other value dictionary.entries

/-- Whether a key has an entry. -/
def contains (dictionary : Dictionary α) (key : String) : Bool :=
  (dictionary.get? key).isSome

/-- The number of entries. -/
def size (dictionary : Dictionary α) : Nat :=
  dictionary.entries.length

/-- The dictionary of a list of entries, of which the last one of each key counts. -/
def ofList (entries : List (String × α)) : Dictionary α :=
  entries.foldl (fun dictionary entry => dictionary.insert entry.1 entry.2) ∅

end Dictionary

end Verdict
