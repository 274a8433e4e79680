import Verdict.Settings.Tree

/-!
# Nodes of a document

While a document is read, each of its tables knows how it came to be. That
decides what may still be added to it: a header passes through all tables but
those in braces, and a key of several parts only through tables that no header
has opened, which from then on no header opens either.

Where headers made a list of tables, both pass through its last one, but a key of
several parts must go on from there.

No key is given twice and no table is opened twice.
-/

namespace Verdict
namespace Toml

/-- How a table came to be: by a header of its own, on the way of another header,
on the way to a key of several parts, or in braces. -/
inductive Origin where
  | header
  | passed
  | dotted
  | braces
  deriving DecidableEq

/-- What leads through tables: the path of a header, or a key of several parts. -/
inductive Way where
  | header
  | key
  deriving DecidableEq

/-- The origin of a table that is made on a way. -/
def Way.origin : Way → Origin
  | .header => .passed
  | .key => .dotted

/-- Whether a way may lead through a table of some origin. -/
def Way.admits : Way → Origin → Bool
  | .header, origin => origin != .braces
  | .key, origin => origin == .passed || origin == .dotted

/-- What counts as the origin of a table once a way has led through it. -/
def Way.marks : Way → Origin → Origin
  | .header, origin => origin
  | .key, _ => .dotted

/-- A value of a document. Tables that headers opened at one path are the
elements of one node. -/
inductive Node where
  | scalar (value : Scalar)
  | list (items : List Node)
  | table (origin : Origin) (entries : List (String × Node))
  | elements (tables : List Node)

/-- The entries of a table that is being read. -/
abbrev Entries :=
  List (String × Node)

namespace Node

mutual

/-- A node as a tree of settings. -/
def toTree : Node → SettingTree
  | .scalar value => .scalar value
  | .list items => .list (toTrees items)
  | .table _ entries => .table (toEntries entries)
  | .elements tables => .list (toTrees tables)

/-- Nodes as trees of settings. -/
def toTrees : List Node → List SettingTree
  | [] => []
  | node :: nodes => toTree node :: toTrees nodes

/-- Entries of a table as trees of settings. -/
def toEntries : List (String × Node) → List (String × SettingTree)
  | [] => []
  | (key, node) :: entries => (key, toTree node) :: toEntries entries

end

/-- Changes the entries of a table through which a way leads. -/
def enterTable (way : Way) (change : Entries → Option Entries) : Node → Option Node
  | .table origin entries =>
    if way.admits origin then (change entries).map (.table (way.marks origin)) else none
  | _ => none

/-- Changes the entries of one of the elements at the path of a header. -/
def enterElement (change : Entries → Option Entries) : Node → Option Node
  | .table origin entries => (change entries).map (.table origin)
  | _ => none

/-- Changes the entries of what a way leads through: a table, the last of the
elements at the path of a header, or a new table. The flag tells whether the way
ends there. -/
def enter (way : Way) (isLast : Bool) (change : Entries → Option Entries) :
    Option Node → Option Node
  | none => (change []).map (.table way.origin)
  | some (.elements tables) =>
    if way = .key ∧ isLast then none
    else do
      let last ← enterElement change (← tables.getLast?)
      return .elements (tables.dropLast ++ [last])
  | some node => enterTable way change node

end Node

namespace Entries

/-- Replaces the node of a key, or adds it at the end. -/
def put (key : String) (node : Node) : Entries → Entries
  | [] => [(key, node)]
  | entry :: rest => if entry.1 = key then (key, node) :: rest else entry :: put key node rest

/-- Changes the entries at the end of a path. -/
def alterAt (way : Way) (change : Entries → Option Entries) :
    (path : List String) → Entries → Option Entries
  | [], entries => change entries
  | key :: path, entries => do
    let node ← Node.enter way path.isEmpty (alterAt way change path) (entries.lookup key)
    return put key node entries

/-- Changes the node of the last key of a path. -/
def alterLast (way : Way) (change : Option Node → Option Node) (path : List String)
    (entries : Entries) : Option Entries := do
  let key ← path.getLast?
  alterAt way (fun entries => do
    let node ← change (entries.lookup key)
    return put key node entries) path.dropLast entries

/-- Gives a key of several parts its value. -/
def assign (key : List String) (value : Node) : Entries → Option Entries :=
  alterLast .key (fun found => if found.isNone then some value else none) key

/-- Opens a table by its header. -/
def openTable : (path : List String) → Entries → Option Entries :=
  alterLast .header fun found =>
    match found with
    | none => some (.table .header [])
    | some (.table .passed entries) => some (.table .header entries)
    | some _ => none

/-- Opens another table among the elements of its header. -/
def openElement : (path : List String) → Entries → Option Entries :=
  alterLast .header fun found =>
    match found with
    | none => some (.elements [.table .header []])
    | some (.elements tables) => some (.elements (tables ++ [.table .header []]))
    | some _ => none

end Entries

end Toml
end Verdict
