import ScreenFlow.Text.Reader

/-!
# Correlation identifiers

An identifier ties together what one run reports.  It is a random number of
122 bits, written as a version 4 universally unique identifier: five groups of
lower-case hexadecimal digits, with the version and the variant in fixed
places.  Different numbers have different texts.
-/

namespace ScreenFlow

/-- The random part of an identifier, from the first group to the last. -/
structure CorrelationId where
  high : BitVec 48
  /-- The third group, after the version. -/
  middle : BitVec 12
  /-- The last two groups, after the variant. -/
  low : BitVec 62
  deriving DecidableEq, Repr

namespace CorrelationId

/-- The identifier with these random bits. -/
def ofBits (bits : BitVec 122) : CorrelationId where
  high := bits.extractLsb' 74 48
  middle := bits.extractLsb' 62 12
  low := bits.extractLsb' 0 62

/-- The groups of digits.  The third begins with the version, four, and the
fourth with a digit whose upper two bits are the variant. -/
def groups (id : CorrelationId) : List (List Char) :=
  [hexDigits lowerHexDigit 8 (id.high.toNat / 0x10000),
    hexDigits lowerHexDigit 4 id.high.toNat,
    '4' :: hexDigits lowerHexDigit 3 id.middle.toNat,
    hexDigits lowerHexDigit 4 (0x8000 + id.low.toNat / 0x1000000000000),
    hexDigits lowerHexDigit 12 id.low.toNat]

/-- An identifier as it is reported. -/
def text (id : CorrelationId) : String :=
  String.ofList (List.intercalate ['-'] id.groups)

def isDigit (char : Char) : Bool :=
  char.isDigit || ('a' ≤ char && char ≤ 'f')

/-- Whether a text can be an identifier. -/
def isWellFormed (text : String) : Bool :=
  match text.toList.splitOn '-' with
  | [first, second, version :: third, variant :: fourth, fifth] =>
      first.length = 8 && second.length = 4 && third.length = 3 &&
        fourth.length = 3 && fifth.length = 12 && version = '4' &&
        ['8', '9', 'a', 'b'].contains variant &&
        (first ++ second ++ third ++ fourth ++ fifth).all isDigit
  | _ => false

end CorrelationId

end ScreenFlow
