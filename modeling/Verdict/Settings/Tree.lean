import Verdict.Settings.Path
import Verdict.Settings.Scalar

/-!
# Trees of settings

Settings are grouped in tables and lists, which may be nested. A later source of
settings is merged into the earlier ones table by table and key by key, so that
it replaces what it names and nothing else. Lists are replaced as a whole.

Whatever stands where a path leads through gives way to a table or to a list, as
the path has a key or a position there.
-/

namespace Verdict

/-- A setting, a list of settings by position or a table of named ones. A place
that has no setting yet is absent. -/
inductive SettingTree where
  | absent
  | scalar (value : Scalar)
  | list (items : List SettingTree)
  | table (entries : List (String × SettingTree))

/-- Settings of one source, each with the path at which it is given. -/
abbrev Layer :=
  List (SettingPath × SettingTree)

namespace SettingTree

/-- The items of a list; anything else has none. -/
def items : SettingTree → List SettingTree
  | .list items => items
  | _ => []

/-- The entries of a table; anything else has none. -/
def entries : SettingTree → List (String × SettingTree)
  | .table entries => entries
  | _ => []

/-- The setting of a key. -/
def get? (tree : SettingTree) (key : String) : Option SettingTree :=
  tree.entries.lookup key

/-- The setting of a key, which may be absent. -/
def get (tree : SettingTree) (key : String) : SettingTree :=
  (tree.get? key).getD .absent

/-- Replaces an entry of a list of entries, or adds it at the end. -/
def putEntry (key : String) (value : SettingTree) :
    List (String × SettingTree) → List (String × SettingTree)
  | [] => [(key, value)]
  | entry :: rest =>
    if entry.1 = key then (key, value) :: rest else entry :: putEntry key value rest

/-- The entries of a table for pairs of a key and its setting, the last of a key
over the earlier ones. -/
def entriesOf (pairs : List (String × SettingTree)) : List (String × SettingTree) :=
  pairs.foldl (fun entries pair => putEntry pair.1 pair.2 entries) []

theorem lookup_putEntry_self
    (key : String)
    (value : SettingTree)
    (entries : List (String × SettingTree)) :
    (putEntry key value entries).lookup key = some value := by
  induction entries with
  | nil => simp [putEntry]
  | cons entry rest inductionHypothesis =>
    obtain ⟨name, found⟩ := entry
    unfold putEntry
    split
    · simp
    · rename_i different
      have apart : (key == name) = false := by
        simpa using fun equal => different equal.symm
      simpa [List.lookup_cons, apart] using inductionHypothesis

theorem lookup_putEntry_of_ne
    {key other : String}
    (value : SettingTree)
    (entries : List (String × SettingTree))
    (different : other ≠ key) :
    (putEntry key value entries).lookup other = entries.lookup other := by
  have apart : (other == key) = false := by
    simpa using different
  induction entries with
  | nil => simp [putEntry, List.lookup_cons, apart]
  | cons entry rest inductionHypothesis =>
    obtain ⟨name, found⟩ := entry
    unfold putEntry
    split
    · rename_i equal
      simp only at equal
      simp [List.lookup_cons, apart, equal]
    · simp only [List.lookup_cons, inductionHypothesis]

/-- A table in which a key has the given setting. -/
def put (tree : SettingTree) (key : String) (value : SettingTree) : SettingTree :=
  .table (putEntry key value tree.entries)

/-- The key that was put has what was put. -/
@[simp] theorem get?_put_self
    (tree : SettingTree)
    (key : String)
    (value : SettingTree) :
    (tree.put key value).get? key = some value :=
  lookup_putEntry_self key value tree.entries

/-- All other keys have what they had. -/
theorem get?_put_of_ne
    {key other : String}
    (tree : SettingTree)
    (value : SettingTree)
    (different : other ≠ key) :
    (tree.put key value).get? other = tree.get? other :=
  lookup_putEntry_of_ne value tree.entries different

mutual

/-- A later tree merged into an earlier one. -/
def merge (earlier : SettingTree) : (later : SettingTree) → SettingTree
  | .absent => .absent
  | .scalar value => .scalar value
  | .list items => .list items
  | .table entries => mergeEntries (.table earlier.entries) entries

/-- The entries of a later table merged into an earlier tree, one by one. -/
def mergeEntries (earlier : SettingTree) : (later : List (String × SettingTree)) → SettingTree
  | [] => earlier
  | (key, value) :: rest => mergeEntries (earlier.put key (merge (earlier.get key) value)) rest

end

/-- A list with an item at a position, and the place of that item. A negative
position counts from the end of the list; a list that is too short is filled up
with absent items on the side on which it ends too early. -/
def reach (items : List SettingTree) (position : Int) : List SettingTree × Nat :=
  let missing := if position < 0 then position.natAbs - items.length
    else position.natAbs + 1 - items.length
  let filling := List.replicate missing absent
  if position < 0 then (filling ++ items, items.length - position.natAbs)
  else (items ++ filling, position.natAbs)

/-- Changes what stands at the end of some steps. -/
def alter (change : SettingTree → SettingTree) :
    (steps : List SettingStep) → SettingTree → SettingTree
  | [], tree => change tree
  | .key name :: steps, tree => tree.put name (alter change steps (tree.get name))
  | .position position :: steps, tree =>
    let (items, place) := reach tree.items position
    .list (items.modify place (alter change steps))

/-- Merges a setting into what stands at the end of a path. -/
def mergeAt (tree : SettingTree) (path : SettingPath) (value : SettingTree) : SettingTree :=
  tree.put path.first (alter (merge · value) path.others (tree.get path.first))

/-- Merges the settings of a layer, one after the other. -/
def apply (tree : SettingTree) (layer : Layer) : SettingTree :=
  layer.foldl (fun tree setting => tree.mergeAt setting.1 setting.2) tree

end SettingTree

end Verdict
