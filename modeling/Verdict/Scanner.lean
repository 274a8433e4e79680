import Verdict.Json.Quote

/-!
# Scanners

A scanner takes a value from the front of a text and leaves a shorter text, or
refuses it. Where a text is refused does not matter.

The items in a bracket are scanned one after the other; what fills the space
around them is passed over.
-/

namespace Verdict

/-- What takes a value from the front of a text, if one stands there. -/
abbrev Scanner (α : Type) :=
  (text : List Char) → Option (Parsed α text)

/-- What passes over the front of a text. -/
abbrev Filler :=
  (text : List Char) → Taken Unit text

/-- The characters at the front of a text that are all of one class. -/
def takeAll (isMember : Char → Bool) (text : List Char) : Taken (List Char) text :=
  ⟨text.takeWhile isMember, text.dropWhile isMember,
    (List.dropWhile_suffix isMember).length_le⟩

/-- A certain character that stands ahead after something was taken. -/
def Taken.mark? {α : Type} {text : List Char} (taken : Taken α text) (wanted : Char) :
    Option (Parsed Unit text) :=
  match taken.ahead with
  | .char first rest shorter => if first = wanted then some ⟨(), rest, shorter⟩ else none
  | .nothing => none

/-- Passes over certain characters that must stand at the front of a text. -/
def takeLetters : (expected text : List Char) → Option (Taken Unit text)
  | [], _ => some (.nothing ())
  | _ :: _, [] => none
  | letter :: expected, char :: text =>
    if letter = char then (takeLetters expected text).map Taken.behind else none

namespace Scanner

variable {α β : Type}

/-- The character of as many hexadecimal digits as are wanted. -/
def codePoint (count : Nat) : Scanner Char := fun text =>
  if long : 0 < count ∧ (text.take count).length = count then do
    let code ← Quote.hexValues? (text.take count)
    if valid : code.isValidChar then
      some ⟨Char.ofNatAux code valid, text.drop count, by
        simp only [List.length_take] at long
        simp only [List.length_drop]
        omega⟩
    else none
  else none

/-- A key with its value, and the mark between them with what may stand on both
sides of it. -/
def pair (fill : Filler) (mark : Char) (key : Scanner α) (value : Scanner β) :
    Scanner (α × β) := fun text => do
  let key ← key text
  let mark ← (fill key.rest).mark? mark
  let space := fill mark.rest
  let value ← value space.rest
  let pair := (value.map (key.value, ·)).widen space.within
  return key.followedBy (mark.followedBy pair)

/-- The items up to and including the closing character, with commas between them
and perhaps one behind the last. -/
def items (fill : Filler) (closing : Char) (item : Scanner α) : Scanner (List α) := fun text =>
  let space := fill text
  match space.mark? closing with
  | some closed => some (closed.map fun _ => [])
  | none => do
    let first ← item space.rest
    let between := fill first.rest
    match between.mark? closing with
    | some closed =>
      return (first.followedBy (closed.map fun _ => [first.value])).widen space.within
    | none => do
      let comma ← between.mark? ','
      have _ := (fill text).within
      have _ : first.rest.length < (fill text).rest.length := first.shorter
      have _ := comma.shorter
      let others ← items fill closing item comma.rest
      let items := comma.followedBy (others.map (first.value :: ·))
      return (first.followedBy items).widen space.within
termination_by text => text.length

end Scanner
end Verdict
