/-!
# Classes of characters

Blanks, and letters with digits, beyond the basic ones.
-/

namespace ScreenFlow

/-- A blank character: one of those with the white space property. -/
def isBlank (char : Char) : Bool :=
  let code := char.toNat
  (0x09 ≤ code && code ≤ 0x0D) || code = 0x20 || code = 0x85 || code = 0xA0 ||
    code = 0x1680 || (0x2000 ≤ code && code ≤ 0x200A) || code = 0x2028 ||
    code = 0x2029 || code = 0x202F || code = 0x205F || code = 0x3000

/-- Blocks beyond the basic characters that hold punctuation, symbols, marks
and private characters rather than letters. -/
def symbolBlocks : List (Nat × Nat) :=
  [(0x80, 0xA9), (0xAB, 0xB1), (0xB4, 0xB4), (0xB6, 0xB8), (0xBB, 0xBB),
    (0xBF, 0xBF), (0xD7, 0xD7), (0xF7, 0xF7), (0x2C2, 0x2C5), (0x2D2, 0x2DF),
    (0x300, 0x344), (0x346, 0x36F), (0x1680, 0x1680), (0x2000, 0x206F),
    (0x20A0, 0x20FF), (0x2190, 0x245F), (0x2500, 0x2775), (0x2794, 0x2BFF),
    (0x2E00, 0x2E2E), (0x3000, 0x3004), (0x3008, 0x3020), (0xE000, 0xF8FF),
    (0xFE00, 0xFE6F), (0xFEFF, 0xFF0F), (0xFFE0, 0xFFFF), (0x1F000, 0x1F0FF),
    (0x1F1E6, 0x1FAFF), (0xE0000, 0x10FFFF)]

/-- A letter or a digit.  Beyond the basic characters that is whatever stands
in no block of symbols. -/
def isLetterOrDigit (char : Char) : Bool :=
  char.isAlphanum || (0x80 ≤ char.toNat &&
    symbolBlocks.all fun block => char.toNat < block.1 || block.2 < char.toNat)

def trimmedFront (text : List Char) : List Char :=
  text.dropWhile isBlank

def trimmedBack (text : List Char) : List Char :=
  (text.reverse.dropWhile isBlank).reverse

end ScreenFlow
