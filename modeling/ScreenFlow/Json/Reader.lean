import ScreenFlow.Json.Value
import ScreenFlow.Text.Reader

/-!
# Reading structured values

The grammar of the JSON notation.  A text is first read as a list of units,
each a character or an escaped code; the characters that the units stand for
are found afterwards, because two escaped codes may stand for one character.
-/

namespace ScreenFlow

namespace JsonValue

/-- A part of a text before escaped codes are joined. -/
inductive TextUnit where
  | plain (char : Char)
  /-- A code written with four hexadecimal digits. -/
  | code (value : Nat)
  deriving DecidableEq, Repr

/-- The characters that may stand between any two parts of a value. -/
def isBlank (char : Char) : Bool :=
  char = ' ' || char = '\n' || char = '\r' || char = '\t'

def escaped? : Char → Option Char
  | '"' => some '"'
  | '\\' => some '\\'
  | '/' => some '/'
  | 'b' => some '\x08'
  | 'f' => some '\x0c'
  | 'n' => some '\n'
  | 'r' => some '\r'
  | 't' => some '\t'
  | _ => none

/-- The units of a text after its opening quote. -/
def units : Reader (List TextUnit)
  | [] => none
  | '"' :: rest => some ([], rest)
  | '\\' :: 'u' :: first :: second :: third :: fourth :: rest => do
      let code ← ofDigits? 16 [first, second, third, fourth]
      let (more, rest) ← units rest
      return (.code code :: more, rest)
  | '\\' :: letter :: rest => do
      let char ← escaped? letter
      let (more, rest) ← units rest
      return (.plain char :: more, rest)
  | char :: rest =>
      if char.toNat < 0x20 then none
      else do
        let (more, rest) ← units rest
        return (.plain char :: more, rest)

/-- The characters that units stand for.  A code from the first half of the
surrogates counts only together with one from the second half. -/
def decodeUnits : List TextUnit → Option (List Char)
  | [] => some []
  | .plain char :: rest => (char :: ·) <$> decodeUnits rest
  | .code high :: .code low :: rest =>
      if 0xD800 ≤ high ∧ high < 0xDC00 then
        if 0xDC00 ≤ low ∧ low < 0xE000 then do
          let char ← charOfCode?
            (0x10000 + (high - 0xD800) * 0x400 + (low - 0xDC00))
          (char :: ·) <$> decodeUnits rest
        else none
      else do
        let char ← charOfCode? high
        (char :: ·) <$> decodeUnits (.code low :: rest)
  | .code code :: rest => do
      let char ← charOfCode? code
      (char :: ·) <$> decodeUnits rest

/-- A text after its opening quote, if it is readable. -/
def textBody : Reader (Option String) := do
  return (decodeUnits (← units)).map String.ofList

/-- The digits of a whole number: a zero, or digits that begin with another
one. -/
def wholePart : Reader (List Char) := do
  let digits ← Reader.run1 Char.isDigit
  Reader.require (digits.length = 1 || digits.head? ≠ some '0')
  return digits

def fractionPart : Reader (List Char) := do
  if ← Reader.skips '.' then
    return '.' :: (← Reader.run1 Char.isDigit)
  else
    return []

def exponentPart : Reader (List Char) := do
  match ← Reader.optional (Reader.ofClass fun char => char = 'e' || char = 'E') with
  | none => return []
  | some mark =>
      let sign ← Reader.optional
        (Reader.ofClass fun char => char = '+' || char = '-')
      return mark :: sign.toList ++ (← Reader.run1 Char.isDigit)

/-- A number as it is written. -/
def lexeme : Reader (List Char) := do
  let sign ← Reader.optional (Reader.ofClass fun char => char = '-')
  let whole ← wholePart
  let fraction ← fractionPart
  let exponent ← exponentPart
  return sign.toList ++ whole ++ fraction ++ exponent

def blanks : Reader Unit :=
  Reader.skipRun isBlank

mutual

/-- A value.  `fuel` bounds the number of parts it is made of. -/
def value : Nat → Reader JsonValue
  | 0 => failure
  | fuel + 1 => do
      match ← Reader.peek? with
      | some '"' =>
          Reader.exactly '"'
          return .text (← textBody)
      | some '[' =>
          Reader.exactly '['
          blanks
          if ← Reader.skips ']' then return .list []
          else return .list (← items fuel)
      | some '\x7b' =>
          Reader.exactly '\x7b'
          blanks
          if ← Reader.skips '\x7d' then return .object []
          else return .object (← members fuel)
      | some 'n' =>
          Reader.literal "null".toList
          return .null
      | some 't' =>
          Reader.literal "true".toList
          return .bool true
      | some 'f' =>
          Reader.literal "false".toList
          return .bool false
      | _ => return .number (← lexeme)

/-- The items of a list that is not empty, and its closing bracket. -/
def items : Nat → Reader (List JsonValue)
  | 0 => failure
  | fuel + 1 => do
      let first ← value fuel
      blanks
      if ← Reader.skips ',' then
        blanks
        return first :: (← items fuel)
      else
        Reader.exactly ']'
        return [first]

/-- The members of an object that is not empty, and its closing brace. -/
def members : Nat → Reader (List (Option String × JsonValue))
  | 0 => failure
  | fuel + 1 => do
      Reader.exactly '"'
      let name ← textBody
      blanks
      Reader.exactly ':'
      blanks
      let held ← value fuel
      blanks
      if ← Reader.skips ',' then
        blanks
        return (name, held) :: (← members fuel)
      else
        Reader.exactly '\x7d'
        return [(name, held)]

end

/-- The value that a whole text writes. -/
def read? (text : String) : Option JsonValue :=
  let chars := text.toList
  Reader.readAll
    (do
      blanks
      let read ← value (2 * chars.length + 1)
      blanks
      return read)
    chars

end JsonValue

end ScreenFlow
