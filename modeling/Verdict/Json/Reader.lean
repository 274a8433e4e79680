import Verdict.Error
import Verdict.Text.Blank

/-!
# Readers

A reader takes a value from the front of a text and leaves a strictly shorter
text, or says what is wrong at the first place that is wrong. Reading a list or
an object repeats a reader, and ends because the text runs out.

Texts are lists of characters, and a fault carries no position.
-/

namespace Verdict

/-- A value read from the front of a text, and the shorter text after it. -/
structure Parsed (α : Type) (text : List Char) where
  value : α
  rest : List Char
  shorter : rest.length < text.length

/-- A value read from the front of a text of which nothing need be used up. -/
structure Taken (α : Type) (text : List Char) where
  value : α
  rest : List Char
  within : rest.length ≤ text.length

/-- What stands at the front of a text: a character and the shorter text after
it, or nothing. -/
inductive Ahead (text : List Char) where
  | nothing
  | char (first : Char) (rest : List Char) (shorter : rest.length < text.length)

/-- What takes a value from the front of a text. -/
abbrev Reader (α : Type) :=
  (text : List Char) → Except DecodeFault (Parsed α text)

/-- The result of reading a text with a fault. -/
def TextFault.raise {α : Type} (fault : TextFault) : Except DecodeFault α :=
  .error (.text fault)

namespace Parsed

variable {α β : Type} {text : List Char} {first : Char}

/-- A value for which the first character was used up. -/
def one (value : α) : Parsed α (first :: text) :=
  ⟨value, text, Nat.lt_succ_self _⟩

/-- Another value in place of the one that was read. -/
def map (convert : α → β) (parsed : Parsed α text) : Parsed β text :=
  ⟨convert parsed.value, parsed.rest, parsed.shorter⟩

/-- What was read from the end of a text, as read from the text. -/
def widen {part : List Char} (parsed : Parsed α part) (short : part.length ≤ text.length) :
    Parsed α text :=
  ⟨parsed.value, parsed.rest, Nat.lt_of_lt_of_le parsed.shorter short⟩

/-- What was read behind a character, as read from there. -/
def behind (parsed : Parsed α text) : Parsed α (first :: text) :=
  parsed.widen (Nat.le_succ _)

/-- What was read behind something else, as read from the front of both. -/
def followedBy (parsed : Parsed α text) (next : Parsed β parsed.rest) : Parsed β text :=
  next.widen (Nat.le_of_lt parsed.shorter)

end Parsed

namespace Taken

variable {α β : Type} {text : List Char} {first : Char}

/-- A value for which nothing was used up. -/
def nothing (value : α) : Taken α text :=
  ⟨value, text, Nat.le_refl _⟩

/-- Another value in place of the one that was taken. -/
def map (convert : α → β) (taken : Taken α text) : Taken β text :=
  ⟨convert taken.value, taken.rest, taken.within⟩

/-- What was taken behind something else, as taken from the front of both. -/
def followedBy (taken : Taken α text) (next : Taken β taken.rest) : Taken β text :=
  ⟨next.value, next.rest, Nat.le_trans next.within taken.within⟩

/-- What was taken behind a character, as taken from there. -/
def behind (taken : Taken α text) : Taken α (first :: text) :=
  ⟨taken.value, taken.rest, Nat.le_succ_of_le taken.within⟩

/-- What stands ahead after something was taken. -/
def ahead (taken : Taken α text) : Ahead text :=
  match left : taken.rest with
  | [] => .nothing
  | first :: rest => .char first rest (by
      have bound := taken.within
      simp only [left, List.length_cons] at bound
      omega)

/-- What was taken behind a character that had to be there. -/
def after (taken : Taken α text) : Parsed α (first :: text) :=
  ⟨taken.value, taken.rest, Nat.lt_succ_of_le taken.within⟩

end Taken

/-- What was taken behind something that was read, as read from the front of both. -/
def Parsed.followedByTaken {α β : Type} {text : List Char} (parsed : Parsed α text)
    (next : Taken β parsed.rest) : Parsed β text :=
  ⟨next.value, next.rest, Nat.lt_of_le_of_lt next.within parsed.shorter⟩

/-- What was read, where nothing need be used up. -/
def Parsed.toTaken {α : Type} {text : List Char} (parsed : Parsed α text) : Taken α text :=
  ⟨parsed.value, parsed.rest, Nat.le_of_lt parsed.shorter⟩

namespace Reader

variable {α β : Type}

/-- A reader whose value is converted. -/
def map (convert : α → β) (reader : Reader α) : Reader β :=
  fun text => (reader text).map (Parsed.map convert)

/-- A reader whose value is converted by a step that may fail. -/
def tryMap (convert : α → Except DecodeFault β) (reader : Reader α) : Reader β := fun text => do
  let parsed ← reader text
  let value ← convert parsed.value
  return parsed.map fun _ => value

/-- A reader that first passes over blanks. -/
def afterBlanks (reader : Reader α) : Reader α := fun text => do
  let parsed ← reader (Text.skipBlanks text)
  return parsed.widen (Text.length_skipBlanks_le text)

/-- Passes over letters that must follow. -/
def letters : (expected text : List Char) → Except DecodeFault (Taken Unit text)
  | [], _ => .ok (.nothing ())
  | _ :: _, [] => TextFault.raise (.unfinished .value)
  | letter :: expected, char :: text =>
    if letter = char then do
      let taken ← letters expected text
      return taken.behind
    else TextFault.expectedLiteral.raise

/-- A literal whose first letter is already known to stand there. -/
def literal (others : List Char) (value : α) : Reader α
  | [] => TextFault.raise (.unfinished .value)
  | _ :: text => do
    let taken ← letters others text
    return taken.after.map fun _ => value

end Reader
end Verdict
