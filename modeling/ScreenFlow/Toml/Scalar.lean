import ScreenFlow.Decimal.Numeral
import ScreenFlow.ValueTree

/-!
# Unquoted values

Truth values, integers, binary numbers and moments of the TOML notation.  A
moment (a day, a time of day or both) becomes a text in its usual form.
-/

namespace ScreenFlow

namespace Toml

/-- The digits of a word in which single underscores may stand between them. -/
def ungrouped? (isMember : Char → Bool) (word : List Char) :
    Option (List Char) :=
  let groups := word.splitOn '_'
  if groups.all fun group => !group.isEmpty && group.all isMember then
    some groups.flatten
  else none

/-- A word without its sign, and whether the sign is a minus. -/
def unsigned : List Char → Bool × List Char
  | '-' :: rest => (true, rest)
  | '+' :: rest => (false, rest)
  | word => (false, word)

/-- The digits of a decimal number.  Only a lone zero begins with a zero. -/
def decimalDigits? (word : List Char) : Option (List Char) := do
  let digits ← ungrouped? Char.isDigit word
  if digits.head? = some '0' ∧ digits ≠ ['0'] then none else some digits

/-- The number written by digits of a base in a word with underscores. -/
def magnitude? (base : Nat) (word : List Char) : Option Int := do
  let digits ← ungrouped? (fun digit => (hexDigit? digit).isSome) word
  let magnitude ← ofDigits? base digits
  return magnitude

/-- An integer of 64 bits.  Only decimal ones have a sign. -/
def integer? (word : List Char) : Option Int := do
  let value ←
    match word with
    | '0' :: 'x' :: digits => magnitude? 16 digits
    | '0' :: 'o' :: digits => magnitude? 8 digits
    | '0' :: 'b' :: digits => magnitude? 2 digits
    | word => do
        let (isNegative, word) := unsigned word
        let magnitude : Nat ← ofDigits? 10 (← decimalDigits? word)
        pure (if isNegative then -(magnitude : Int) else magnitude)
  if Numeral.isInteger value then some value else none

def afterMark? : List Char → Option (List Char)
  | [] => none
  | _ :: rest => some rest

def exponent? (word : List Char) : Option Int := do
  let (isNegative, word) := unsigned word
  let magnitude : Nat ← ofDigits? 10 (← ungrouped? Char.isDigit word)
  return if isNegative then -(magnitude : Int) else magnitude

/-- A binary number of digits with a fraction, an exponent or both.  A positive
one out of reach is refused. -/
def finite? (isNegative : Bool) (word : List Char) : Option Binary64 := do
  let isMark (char : Char) : Bool := char = 'e' || char = 'E'
  let mantissa := word.takeWhile fun char => !isMark char
  let fractionPart := afterMark? (mantissa.dropWhile (· ≠ '.'))
  let exponentPart := afterMark? (word.dropWhile fun char => !isMark char)
  guard (fractionPart.isSome || exponentPart.isSome)
  let whole ← decimalDigits? (mantissa.takeWhile (· ≠ '.'))
  let fraction ←
    match fractionPart with
    | none => some []
    | some digits => ungrouped? Char.isDigit digits
  let power ←
    match exponentPart with
    | none => some 0
    | some digits => exponent? digits
  let value := Binary64.ofDecimal isNegative
    (← ofDigits? 10 (whole ++ fraction)) (power - fraction.length)
  if value = .infinite false then none else some value

/-- A binary number or a word for one. -/
def real? (word : List Char) : Option Binary64 :=
  let (isNegative, magnitude) := unsigned word
  match String.ofList magnitude with
  | "inf" => some (.infinite isNegative)
  | "nan" => some .nan
  | _ => finite? isNegative magnitude

def isWordChar (char : Char) : Bool :=
  char.isAlphanum || char = '+' || char = '-' || char = '.' || char = '_'

/-- A truth value or a number. -/
def word : Reader ValueTree := do
  let written ← Reader.run isWordChar
  match String.ofList written with
  | "true" => return .bool true
  | "false" => return .bool false
  | _ =>
      match integer? written, real? written with
      | some value, _ => return .integer value
      | none, some value => return .real value
      | none, none => failure

/-- A number of exactly `width` decimal digits within bounds, as it is written
and what it is. -/
def field (width low high : Nat) : Reader (List Char × Nat) := fun text =>
  let written := text.take width
  if written.length = width ∧ written.all Char.isDigit then do
    let value ← ofDigits? 10 written
    if low ≤ value ∧ value ≤ high then
      some ((written, value), text.drop width)
    else none
  else none

def daysOf (year month : Nat) : Nat :=
  if month = 2 then
    if year % 4 = 0 ∧ (year % 100 ≠ 0 ∨ year % 400 = 0) then 29 else 28
  else if month = 4 ∨ month = 6 ∨ month = 9 ∨ month = 11 then 30
  else 31

def day : Reader (List Char) := do
  let (year, yearNumber) ← field 4 0 9999
  Reader.exactly '-'
  let (month, monthNumber) ← field 2 1 12
  Reader.exactly '-'
  let (day, _) ← field 2 1 (daysOf yearNumber monthNumber)
  return year ++ '-' :: month ++ '-' :: day

/-- The fraction of a second, to the billionth and without zeros at its end. -/
def fractionOfSecond : Reader (List Char) := do
  if ← Reader.skips '.' then
    let digits := (← Reader.run1 Char.isDigit).take 9
    let significant := (digits.reverse.dropWhile (· == '0')).reverse
    return if significant.isEmpty then [] else '.' :: significant
  else
    return []

/-- A time of day.  A minute may have a leap second. -/
def time : Reader (List Char) := do
  let (hour, _) ← field 2 0 23
  Reader.exactly ':'
  let (minute, _) ← field 2 0 59
  Reader.exactly ':'
  let (second, _) ← field 2 0 60
  return hour ++ ':' :: minute ++ ':' :: second ++ (← fractionOfSecond)

/-- The distance of a local time from universal time. -/
def offset : Reader (List Char) := do
  match ← Reader.any with
  | 'Z' | 'z' => return ['Z']
  | mark =>
      Reader.require (mark = '+' || mark = '-')
      let (hour, hours) ← field 2 0 23
      Reader.exactly ':'
      let (minute, minutes) ← field 2 0 59
      let sign := if hours + minutes = 0 then '+' else mark
      return sign :: hour ++ ':' :: minute

/-- A time of day after a day, and its offset. -/
def timeOfDay : Reader (List Char) := do
  discard (Reader.ofClass fun char => char = 'T' || char = 't' || char = ' ')
  let time ← time
  let offset ← Reader.optional offset
  return 'T' :: time ++ offset.getD []

/-- A day, a day with a time, or a time. -/
def moment : Reader ValueTree := do
  let written ←
    (do
      let day ← day
      let time ← Reader.optional timeOfDay
      return day ++ time.getD []) <|> time
  return .text (String.ofList written)

/-- A value on one line without quotes. -/
def scalar : Reader ValueTree :=
  moment <|> word

end Toml

end ScreenFlow
