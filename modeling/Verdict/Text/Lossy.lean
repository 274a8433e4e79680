/-!
# Lossy decoding

Bytes are read as UTF-8. Where they are not UTF-8, the longest beginning of a
character that stands there is read as one replacement character, and so is any
byte that begins none.
-/

namespace Verdict
namespace Text

/-- The character read for bytes that are not UTF-8. -/
def replacement : Char :=
  '\ufffd'

/-- Whether a byte continues a character. -/
def isContinuation (byte : UInt8) : Bool :=
  0x80 ≤ byte && byte ≤ 0xbf

/-- Whether the second byte of a character may follow its first one. -/
def mayFollow (first second : UInt8) : Bool :=
  if first = 0xe0 then 0xa0 ≤ second && second ≤ 0xbf
  else if first = 0xed then 0x80 ≤ second && second ≤ 0x9f
  else if first = 0xf0 then 0x90 ≤ second && second ≤ 0xbf
  else if first = 0xf4 then 0x80 ≤ second && second ≤ 0x8f
  else isContinuation second

/-- Adds the six bits of a continuation to a code point. -/
def extendCode (code : Nat) (byte : UInt8) : Nat :=
  64 * code + byte.toNat % 64

/-- The characters of bytes. -/
def decodeLossy : List UInt8 → List Char
  | [] => []
  | first :: rest =>
    if first < 0x80 then Char.ofNat first.toNat :: decodeLossy rest
    else if first < 0xc2 || 0xf4 < first then replacement :: decodeLossy rest
    else
      match rest with
      | [] => [replacement]
      | second :: afterSecond =>
        if !mayFollow first second then replacement :: decodeLossy (second :: afterSecond)
        else if first < 0xe0 then
          Char.ofNat (extendCode (first.toNat % 32) second) :: decodeLossy afterSecond
        else
          match afterSecond with
          | [] => [replacement]
          | third :: afterThird =>
            if !isContinuation third then replacement :: decodeLossy (third :: afterThird)
            else if first < 0xf0 then
              Char.ofNat (extendCode (extendCode (first.toNat % 16) second) third) ::
                decodeLossy afterThird
            else
              match afterThird with
              | [] => [replacement]
              | fourth :: afterFourth =>
                if !isContinuation fourth then replacement :: decodeLossy (fourth :: afterFourth)
                else
                  Char.ofNat (extendCode (extendCode (extendCode (first.toNat % 8) second) third)
                    fourth) :: decodeLossy afterFourth

end Text
end Verdict
