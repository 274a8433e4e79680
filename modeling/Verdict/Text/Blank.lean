/-!
# Blanks

Three sets of blanks matter: those inside a line, those between the tokens of a
JSON text, and the larger set of all white space, which decides what the first
visible character of a text is.
-/

namespace Verdict
namespace Text

/-- The two characters that may stand between the parts of a line. -/
def isLineBlank (char : Char) : Bool :=
  char == ' ' || char == '\t'

/-- The four characters that may stand between the tokens of a JSON text. -/
def isTokenBlank (char : Char) : Bool :=
  char == ' ' || char == '\n' || char == '\t' || char == '\r'

/-- The white space of all scripts. -/
def isBlank (char : Char) : Bool :=
  let code := char.toNat
  (0x9 ≤ code && code ≤ 0xd) || code == 0x20 || code == 0x85 || code == 0xa0 ||
    code == 0x1680 || (0x2000 ≤ code && code ≤ 0x200a) || code == 0x2028 || code == 0x2029 ||
    code == 0x202f || code == 0x205f || code == 0x3000

/-- Every blank between tokens is white space. -/
theorem isBlank_of_isTokenBlank
    {char : Char}
    (blank : isTokenBlank char = true) :
    isBlank char = true := by
  simp only [isTokenBlank, Bool.or_eq_true, beq_iff_eq] at blank
  rcases blank with ((rfl | rfl) | rfl) | rfl <;> decide

/-- A text without the white space at its end. -/
def trimEnd (text : List Char) : List Char :=
  (text.reverse.dropWhile isBlank).reverse

/-- A text without the white space on both sides. -/
def trim (text : List Char) : List Char :=
  trimEnd (text.dropWhile isBlank)

/-- A text without its leading token blanks. -/
def skipBlanks (text : List Char) : List Char :=
  text.dropWhile isTokenBlank

theorem length_skipBlanks_le (text : List Char) :
    (skipBlanks text).length ≤ text.length :=
  (List.dropWhile_suffix isTokenBlank).length_le

end Text
end Verdict
