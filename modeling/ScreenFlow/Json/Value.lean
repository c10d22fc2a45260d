/-!
# Structured values

The values of the JSON notation.  Numbers are kept as they are written, and
objects keep their members in order, repeated names included.
-/

namespace ScreenFlow

/-- A structured value. -/
inductive JsonValue where
  | null
  | bool (value : Bool)
  | number (lexeme : List Char)
  /-- A text; it has no value if an escape in it names no character. -/
  | text (value : Option String)
  | list (items : List JsonValue)
  | object (members : List (Option String × JsonValue))

namespace JsonValue

def ofText (value : String) : JsonValue :=
  .text (some value)

def ofNat (value : Nat) : JsonValue :=
  .number (Nat.toDigits 10 value)

/-- An object whose names are readable. -/
def record (members : List (String × JsonValue)) : JsonValue :=
  .object (members.map fun member => (some member.1, member.2))

/-- The text, if the value is a readable one. -/
def toText? : JsonValue → Option String
  | .text value => value
  | _ => none

def toBool? : JsonValue → Option Bool
  | .bool value => some value
  | _ => none

/-- The number, if it is written with digits alone. -/
def toNat? : JsonValue → Option Nat
  | .number lexeme =>
      if lexeme.all Char.isDigit then
        some (lexeme.foldl (fun number digit =>
          10 * number + (digit.toNat - '0'.toNat)) 0)
      else none
  | _ => none

/-- The member with this name, the last one if the name is repeated. -/
def member? (name : String) : JsonValue → Option JsonValue
  | .object members =>
      (members.reverse.find? fun member => member.1 == some name).map (·.2)
  | _ => none

/-- The values of the named fields, each of them if it is there.  They are
members of an object or the items of a list in this order; a list may be too
short but not too long. -/
def fields? (names : List String) : JsonValue → Option (List (Option JsonValue))
  | .list items =>
      if items.length ≤ names.length then
        some ((List.range names.length).map fun index => items[index]?)
      else none
  | .object members =>
      some (names.map fun name => (JsonValue.object members).member? name)
  | _ => none

/-- Whether each name in an object is readable and none of the given names is
repeated.  Other values have no names. -/
def hasProperNames (names : List String) : JsonValue → Bool
  | .object members =>
      members.all (fun member => member.1.isSome) &&
        names.all fun name =>
          (members.filter fun member => member.1 == some name).length ≤ 1
  | _ => true

end JsonValue

end ScreenFlow
