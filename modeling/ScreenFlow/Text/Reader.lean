/-!
# Readers

A reader takes what it understands from the front of a text and leaves the
rest, or refuses the text.  Of two alternatives the second one is tried on the
whole text where the first one refuses.
-/

namespace ScreenFlow

/-- A way to read a value from the front of a text. -/
abbrev Reader :=
  StateT (List Char) Option

namespace Reader

/-- Read a whole text. -/
def readAll {Value : Type} (reader : Reader Value) (text : List Char) :
    Option Value :=
  match reader text with
  | some (value, []) => some value
  | _ => none

/-- The first character, which stays where it is. -/
def peek? : Reader (Option Char) := fun text =>
  some (text.head?, text)

def any : Reader Char
  | [] => none
  | first :: rest => some (first, rest)

/-- A character of a class. -/
def ofClass (isMember : Char → Bool) : Reader Char
  | [] => none
  | first :: rest => if isMember first then some (first, rest) else none

def exactly (expected : Char) : Reader Unit
  | [] => none
  | first :: rest => if first = expected then some ((), rest) else none

def literal : List Char → Reader Unit
  | [] => pure ()
  | expected :: more => do
      exactly expected
      literal more

/-- Whether the text goes on with this character, which is taken if so. -/
def skips (expected : Char) : Reader Bool
  | [] => some (false, [])
  | first :: rest =>
      if first = expected then some (true, rest) else some (false, first :: rest)

/-- The longest run of characters of a class. -/
def run (isMember : Char → Bool) : Reader (List Char) := fun text =>
  some (text.takeWhile isMember, text.dropWhile isMember)

/-- The longest run of characters of a class, which may be empty. -/
def skipRun (isMember : Char → Bool) : Reader Unit := do
  discard (run isMember)

/-- The longest run of characters of a class, which must not be empty. -/
def run1 (isMember : Char → Bool) : Reader (List Char) := do
  let taken ← run isMember
  if taken.isEmpty then failure else return taken

/-- The value of a reader, or nothing where it refuses. -/
def optional {Value : Type} (reader : Reader Value) : Reader (Option Value) :=
  some <$> reader <|> pure none

/-- Nothing, as long as a condition holds. -/
def require (condition : Bool) : Reader Unit :=
  if condition then pure () else failure

/-- Whether nothing is left. -/
def atEnd : Reader Bool := fun text => some (text.isEmpty, text)

end Reader

/-- The value of a hexadecimal digit, in either case. -/
def hexDigit? (digit : Char) : Option Nat :=
  if digit.isDigit then some (digit.toNat - '0'.toNat)
  else if 'a' ≤ digit ∧ digit ≤ 'f' then some (digit.toNat - 'a'.toNat + 10)
  else if 'A' ≤ digit ∧ digit ≤ 'F' then some (digit.toNat - 'A'.toNat + 10)
  else none

/-- The number written by digits of a base, most significant first. -/
def ofDigits? (base : Nat) (digits : List Char) : Option Nat :=
  digits.foldlM
    (fun number digit => do
      let value ← hexDigit? digit
      if value < base then some (base * number + value) else none)
    0

/-- The character with a code, if there is one. -/
def charOfCode? (code : Nat) : Option Char :=
  if code.isValidChar then some (Char.ofNat code) else none

/-- The digit of a value below sixteen, in lower case. -/
def lowerHexDigit (value : Nat) : Char :=
  if value < 10 then Char.ofNat ('0'.toNat + value)
  else Char.ofNat ('a'.toNat + (value - 10))

/-- The digit of a value below sixteen, in upper case. -/
def upperHexDigit (value : Nat) : Char :=
  if value < 10 then Char.ofNat ('0'.toNat + value)
  else Char.ofNat ('A'.toNat + (value - 10))

/-- A number below `16 ^ width` in exactly `width` hexadecimal digits. -/
def hexDigits (digit : Nat → Char) (width number : Nat) : List Char :=
  (List.range width).reverse.map fun place =>
    digit (number / Nat.pow 16 place % 16)

end ScreenFlow
