import Verdict.Error
import Verdict.Text.Split

/-!
# File trees

Files are looked up in a tree of directories, by a path relative to its root.
Every part of a path but the last must lead to a directory, and so must a path
that ends in a slash.

A file holds bytes, which need not be the text that a reader expects.
-/

namespace Verdict

/-- A file, or a directory with named entries. -/
inductive FileTree where
  | file (bytes : ByteArray)
  | directory (entries : List (String × FileTree))

namespace FileTree

/-- The entry to which one part of a path leads from a directory. The directories
above it are listed innermost first; the root is its own parent. -/
def step (place : FileTree × List FileTree) (part : String) :
    Except FileFault (FileTree × List FileTree) :=
  match place with
  | (.file _, _) => .error .notDirectory
  | (.directory entries, above) =>
    if part = "" ∨ part = "." then .ok place
    else if part = ".." then
      match above with
      | [] => .ok place
      | parent :: higher => .ok (parent, higher)
    else if part.utf8ByteSize > 255 then .error .nameTooLong
    else
      match entries.lookup part with
      | some entry => .ok (entry, .directory entries :: above)
      | none => .error .notFound

/-- The entry to which a path leads. -/
def find (tree : FileTree) (path : String) : Except FileFault FileTree :=
  if path.toList.contains '\x00' then .error .nulInName
  else if path.isEmpty || path.startsWith "/" then .error .notFound
  else if path.utf8ByteSize ≥ 4096 then .error .nameTooLong
  else ((Text.split '/' path).foldlM step (tree, [])).map (·.1)

/-- The text of a file. -/
def readText : FileTree → Except FileFault String
  | .directory _ => .error .isDirectory
  | .file bytes =>
    match String.fromUTF8? bytes with
    | some text => .ok text
    | none => .error .notText

mutual

/-- A tree after an entry was put at the end of a path inside it. -/
def putInside (entry : FileTree) : (path : List String) → FileTree → FileTree
  | [], _ => entry
  | part :: parts, .file _ => .directory [(part, putInside entry parts (.directory []))]
  | part :: parts, .directory entries => .directory (putAmong entry part parts entries)

/-- The entries of a directory after one of them was replaced or added. -/
def putAmong (entry : FileTree) (part : String) (parts : List String) :
    List (String × FileTree) → List (String × FileTree)
  | [] => [(part, putInside entry parts (.directory []))]
  | (name, other) :: rest =>
    if name = part then (name, putInside entry parts other) :: rest
    else (name, other) :: putAmong entry part parts rest

end

/-- Puts a file or a directory at the end of a path, with the directories that
lead to it. -/
def put (tree : FileTree) (path : List String) (entry : FileTree) : FileTree :=
  putInside entry path tree

end FileTree

end Verdict
