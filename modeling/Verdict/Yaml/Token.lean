import Verdict.Yaml.Property

/-!
# Tokens of an outlined document

Tokens tell where documents, lists and tables begin and end, be they outlined by
indentation or enclosed in brackets, and what stands in them.

A key is marked by a token in front of it, although the text shows only behind it
that it is a key.
-/

namespace Verdict
namespace Yaml

/-- A part of a document. -/
inductive Token where
  | directive (value : Directive)
  | documentStart
  | documentEnd
  | outlineList
  | outlineTable
  | outlineEnd
  | openList
  | closeList
  | openTable
  | closeTable
  | dash
  | comma
  | key
  | value
  | anchor (name : String)
  | reference (name : String)
  | tag (tag : Tag)
  | scalar (isPlain : Bool) (text : String)
  | textEnd
  deriving DecidableEq

end Yaml
end Verdict
