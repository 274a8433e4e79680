import Verdict.Text.Unseen

/-!
# Letters

A letter is one of the base alphabet, or a character beyond it that can be seen
and stands in no block of punctuation, symbols and signs.
-/

namespace Verdict
namespace Text

/-- The ranges of code points beyond the base alphabet that hold punctuation,
symbols and signs. -/
def signRanges : List (Nat × Nat) :=
  [(0x80, 0xa9), (0xab, 0xb4), (0xb6, 0xb9), (0xbb, 0xbf), (0xd7, 0xd7), (0xf7, 0xf7),
   (0x2c2, 0x2c5), (0x2d2, 0x2df), (0x2000, 0x2070), (0x2074, 0x207e), (0x2080, 0x208e),
   (0x20a0, 0x2101), (0x2103, 0x2106), (0x2108, 0x2109), (0x2114, 0x2114), (0x2116, 0x2118),
   (0x211e, 0x2123), (0x2140, 0x2144), (0x214a, 0x214d), (0x214f, 0x215f), (0x2189, 0x2bff),
   (0x2e00, 0x3004), (0x3008, 0x3020), (0x3030, 0x3030), (0x303d, 0x3040), (0x309b, 0x309c),
   (0x30a0, 0x30a0), (0x30fb, 0x30fb), (0x3190, 0x319f), (0x3200, 0x33ff), (0x4dc0, 0x4dff),
   (0xfd3e, 0xfd4f), (0xfdfc, 0xfe6b), (0xff01, 0xff20), (0xff3b, 0xff40), (0xff5b, 0xff65),
   (0xffe0, 0xffff), (0x10100, 0x1013f), (0x1d000, 0x1d378), (0x1f000, 0x1fbff)]

/-- Whether a character is a letter. -/
def isLetter (char : Char) : Bool :=
  let code := char.toNat
  if code < 0x80 then char.isAlpha
  else !(signRanges.any fun range => range.1 ≤ code && code ≤ range.2) && !isUnseen char

/-- Whether a character combines with the letter before it. -/
def isMark (char : Char) : Bool :=
  0x300 ≤ char.toNat && char.toNat ≤ 0x36f

end Text
end Verdict
