import Verdict.Yaml.Lexing
import Verdict.Yaml.Node

/-!
# Outlined documents

The tokens of a document make one node. A node may have an anchor, and stands again
where it is referred to. A missing key or value is null.

A text without tokens has no document and no settings. With more than one document
in it, or with anything but a table as its document, a text is refused.
-/

namespace Verdict
namespace Yaml

/-- The tokens that are left, what the handles of tags stand for, the names of the
anchors so far, the last one first, and the anchored nodes that are complete, with
the number of anchors before theirs. -/
structure Composition where
  tokens : List Token
  handles : List (String × String) := []
  anchors : List String := []
  nodes : List (Nat × Node) := []

/-- A step that takes tokens from the front and makes something of them, or refuses
them. -/
abbrev Compose (α : Type) :=
  StateT Composition Option α

namespace Compose

/-- The token at the front. -/
def peek : Compose Token := do
  return (← get).tokens.headD .textEnd

/-- Passes over the token at the front. -/
def skip : Compose Unit :=
  modify fun composition => { composition with tokens := composition.tokens.drop 1 }

/-- A null, as it stands for what is missing. -/
def null : Node :=
  .atom .null

/-- The node that is missing before certain tokens, or the one that is there. -/
def orNull (isMissing : Token → Bool) (node : Compose Node) : Compose Node := do
  if isMissing (← peek) then return null else node

/-- A tag with what its handle stands for. A handle of more than one mark must be
known, or be that of the standard kinds. -/
def resolve (tag : Tag) : Compose Tag := do
  match (← get).handles.lookup tag.handle with
  | some beginning => return { tag with handle := beginning }
  | none =>
    if tag.handle = "!!" then return { tag with handle := Atom.standardTag }
    else if isClosedHandle tag.handle.toList then failure
    else return tag

/-- Notes the name of an anchor, and gives the number of anchors before it. -/
def addAnchor (name : String) : Compose Nat := do
  let composition ← get
  set { composition with anchors := name :: composition.anchors }
  return composition.anchors.length

/-- The node with an anchor, which is invalid as long as it is not complete. -/
def referred (name : String) : Compose Node := do
  let composition ← get
  match composition.anchors.dropWhile (· ≠ name) with
  | [] => failure
  | _ :: earlier => return (composition.nodes.lookup earlier.length).getD (.atom .invalid)

/-- Notes that an anchored node is complete. -/
def complete (anchor : Option Nat) (node : Node) : Compose Unit :=
  match anchor with
  | some number => modify fun composition =>
    { composition with nodes := (number, node) :: composition.nodes }
  | none => pure ()

/-- The anchor and the tag before a node, in either order. -/
def properties : Compose (Option Nat × Option Tag) := do
  match ← peek with
  | .anchor name =>
    skip
    let anchor ← addAnchor name
    match ← peek with
    | .tag tag =>
      skip
      return (some anchor, some (← resolve tag))
    | _ => return (some anchor, none)
  | .tag tag =>
    skip
    let tag ← resolve tag
    match ← peek with
    | .anchor name =>
      skip
      return (some (← addAnchor name), some tag)
    | _ => return (none, some tag)
  | _ => return (none, none)

/-- Whether a key or value is missing before a token of an indented table. -/
def endsMember (token : Token) : Bool :=
  token == .key || token == .value || token == .outlineEnd

/-- Whether a value is missing before a token in brackets. -/
def endsItem (closing : Token) (token : Token) : Bool :=
  token == .comma || token == closing

/-- The value behind a key in brackets. -/
def valueWith (node : Compose Node) (closing : Token) : Compose Node := do
  if (← peek) = .value then
    skip
    orNull (endsItem closing) node
  else return null

/-- A pair without braces in a list, behind the mark of its key. -/
def pairWith (node : Compose Node) : Compose Node := do
  let token ← peek
  let key ← if token = .value ∨ endsItem .closeList token then do
      skip
      pure null
    else node
  let value ← valueWith node .closeList
  match Node.members? [key, value] with
  | some members => return .table members
  | none => failure

/-- The atom of a text, or of no text if there is an anchor or a tag at least. -/
def atomWith (hasProperty : Bool) (tag : Option Tag) : Compose Node := do
  match ← peek with
  | .scalar isPlain text =>
    skip
    return .atom (Atom.ofScalar isPlain tag text)
  | _ => if hasProperty then return .atom (Atom.ofScalar true tag "") else failure

/-- A node that keys and values make, which take turns. -/
def tableOf (nodes : List Node) : Compose Node :=
  match Node.members? nodes with
  | some members => pure (.table members)
  | none => failure

mutual

/-- A node. What is outlined may be refused, and the items of a list in a table may
be indented no more than the table. The fuel bounds the depth of the steps. -/
def node (isOutlined isInTable : Bool) : (fuel : Nat) → Compose Node
  | 0 => failure
  | fuel + 1 => do
    match ← peek with
    | .reference name =>
      skip
      referred name
    | _ =>
      let (anchor, tag) ← properties
      let hasProperty := anchor.isSome || tag.isSome
      let node ← content isOutlined isInTable (atomWith hasProperty tag) fuel
      complete anchor node
      return node

/-- A node behind its anchor and its tag, which is an atom if it is nothing else. -/
def content (isOutlined isInTable : Bool) (atom : Compose Node) : (fuel : Nat) → Compose Node
  | 0 => failure
  | fuel + 1 => do
    match ← peek, isOutlined, isInTable with
    | .openList, _, _ =>
      skip
      return .list (← listItems true fuel)
    | .openTable, _, _ =>
      skip
      tableOf (← tableMembers true fuel)
    | .outlineList, true, _ =>
      skip
      return .list (← outlinedItems fuel)
    | .outlineTable, true, _ =>
      skip
      tableOf (← outlinedMembers fuel)
    | .dash, _, true => return .list (← looseItems fuel)
    | _, _, _ => atom

/-- The items of a list that is indented, up to and including its end. -/
def outlinedItems : (fuel : Nat) → Compose (List Node)
  | 0 => failure
  | fuel + 1 => do
    match ← peek with
    | .outlineEnd =>
      skip
      return []
    | .dash =>
      skip
      let item ← orNull (fun token => token == .dash || token == .outlineEnd)
        (node true false fuel)
      return item :: (← outlinedItems fuel)
    | _ => failure

/-- The items of a list that is not indented more than the table in which it is. -/
def looseItems : (fuel : Nat) → Compose (List Node)
  | 0 => failure
  | fuel + 1 => do
    match ← peek with
    | .dash =>
      skip
      let item ← orNull (fun token => token == .dash || endsMember token) (node true false fuel)
      return item :: (← looseItems fuel)
    | _ => return []

/-- The keys and values of a table that is indented, up to and including its end. -/
def outlinedMembers : (fuel : Nat) → Compose (List Node)
  | 0 => failure
  | fuel + 1 => do
    match ← peek with
    | .outlineEnd =>
      skip
      return []
    | .key =>
      skip
      let key ← orNull endsMember (node true true fuel)
      let value ← outlinedValue fuel
      return key :: value :: (← outlinedMembers fuel)
    | .value =>
      let value ← outlinedValue fuel
      return null :: value :: (← outlinedMembers fuel)
    | _ => failure

/-- The value behind a key of a table that is indented. -/
def outlinedValue : (fuel : Nat) → Compose Node
  | 0 => failure
  | fuel + 1 => do
    if (← peek) = .value then
      skip
      orNull endsMember (node true true fuel)
    else return null

/-- The items of a list in brackets, up to and including its end. -/
def listItems (isFirst : Bool) : (fuel : Nat) → Compose (List Node)
  | 0 => failure
  | fuel + 1 => do
    match ← peek, isFirst with
    | .closeList, _ => pure ()
    | .comma, false => skip
    | _, true => pure ()
    | _, false => failure
    match ← peek with
    | .closeList =>
      skip
      return []
    | .key =>
      skip
      let item ← pairWith (node false false fuel)
      return item :: (← listItems false fuel)
    | _ =>
      let item ← node false false fuel
      return item :: (← listItems false fuel)

/-- The keys and values of a table in brackets, up to and including its end. -/
def tableMembers (isFirst : Bool) : (fuel : Nat) → Compose (List Node)
  | 0 => failure
  | fuel + 1 => do
    match ← peek, isFirst with
    | .closeTable, _ => pure ()
    | .comma, false => skip
    | _, true => pure ()
    | _, false => failure
    match ← peek with
    | .closeTable =>
      skip
      return []
    | .key =>
      skip
      let key ← orNull (fun token => token == .value || endsItem .closeTable token)
        (node false false fuel)
      let value ← valueWith (node false false fuel) .closeTable
      return key :: value :: (← tableMembers false fuel)
    | .value =>
      let value ← valueWith (node false false fuel) .closeTable
      return null :: value :: (← tableMembers false fuel)
    | _ =>
      let key ← node false false fuel
      return key :: null :: (← tableMembers false fuel)

end

/-- Whether a document has nothing in it before a token. -/
def endsDocument : Token → Bool
  | .directive _ | .documentStart | .documentEnd | .textEnd => true
  | _ => false

/-- Passes over the marks of ends of documents. -/
def skipEnds : (tokens : List Token) → List Token
  | .documentEnd :: tokens => skipEnds tokens
  | tokens => tokens

/-- What the directives before a document say of handles, the last one first, and
what follows them. Only one may say which version the document has. -/
def directives (hasVersion : Bool) :
    (tokens : List Token) → Option (List Token × List (String × String))
  | .directive .version :: tokens => do
    if hasVersion then none
    else
      let (tokens, handles) ← directives true tokens
      return (tokens, handles)
  | .directive (.handle name beginning) :: tokens => do
    let (tokens, handles) ← directives hasVersion tokens
    return (tokens, handles ++ [(name, beginning)])
  | tokens => some (tokens, [])

/-- The node of a document, which may be missing behind a mark of its beginning. -/
def document (tokens : List Token) : Option (Node × List Token) := do
  let fuel := 3 * tokens.length + 3
  let (rest, handles) ← directives false tokens
  match rest with
  | .documentStart :: rest =>
    let whole := orNull endsDocument (node true false fuel)
    let (node, composition) ← whole.run { tokens := rest, handles }
    return (node, composition.tokens)
  | rest =>
    if handles.isEmpty ∧ rest.length = tokens.length then
      let (node, composition) ← (node true false fuel).run { tokens := rest }
      return (node, composition.tokens)
    else none

end Compose

/-- The node of the only document of a text, or nothing if the text has none. -/
def onlyNode? (tokens : List Token) : Option (Option Node) :=
  match Compose.skipEnds tokens with
  | [.textEnd] => some none
  | tokens => do
    let (node, rest) ← Compose.document tokens
    if Compose.skipEnds rest = [.textEnd] then return some node else none

/-- The entries of the outermost table of a text, if it is well formed. -/
def read (text : List Char) : Option (List (String × SettingTree)) := do
  let tokens ← tokens? text
  match ← onlyNode? tokens with
  | none => return []
  | some node =>
    match ← node.toTree? with
    | .table entries => return entries
    | _ => none

end Yaml
end Verdict
