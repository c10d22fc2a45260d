import ScreenFlow.Json.Value
import ScreenFlow.Text.Reader

/-!
# Writing structured values

The layout of structured output: one item or member a line, two spaces for
each level, nothing between the brackets of an empty list or object.
-/

namespace ScreenFlow

namespace JsonValue

/-- A character between quotes.  Quotes, backslashes and control characters
are escaped, as shortly as the notation allows. -/
def quotedChar (char : Char) : List Char :=
  match char with
  | '"' => ['\\', '"']
  | '\\' => ['\\', '\\']
  | '\x08' => ['\\', 'b']
  | '\x0c' => ['\\', 'f']
  | '\n' => ['\\', 'n']
  | '\r' => ['\\', 'r']
  | '\t' => ['\\', 't']
  | other =>
      if other.toNat < 0x20 then
        '\\' :: 'u' :: hexDigits lowerHexDigit 4 other.toNat
      else [other]

def quoted (text : String) : String :=
  String.ofList ('"' :: text.toList.flatMap quotedChar ++ ['"'])

/-- The start of a new line at a depth. -/
def lineAt (level : Nat) : String :=
  String.ofList ('\n' :: List.replicate (2 * level) ' ')

mutual

def layout (level : Nat) : JsonValue → String
  | .null => "null"
  | .bool value => if value then "true" else "false"
  | .number lexeme => String.ofList lexeme
  | .text value => quoted (value.getD "")
  | .list [] => "[]"
  | .list (first :: rest) =>
      "[" ++ layoutItems (level + 1) (first :: rest) ++ lineAt level ++ "]"
  | .object [] => "\x7b\x7d"
  | .object (first :: rest) =>
      "\x7b" ++ layoutMembers (level + 1) (first :: rest) ++ lineAt level ++
        "\x7d"

def layoutItems (level : Nat) : List JsonValue → String
  | [] => ""
  | [last] => lineAt level ++ layout level last
  | first :: rest =>
      lineAt level ++ layout level first ++ "," ++ layoutItems level rest

def layoutMembers (level : Nat) : List (Option String × JsonValue) → String
  | [] => ""
  | [(name, last)] =>
      lineAt level ++ quoted (name.getD "") ++ ": " ++ layout level last
  | (name, first) :: rest =>
      lineAt level ++ quoted (name.getD "") ++ ": " ++ layout level first ++
        "," ++ layoutMembers level rest

end

/-- A value as it is written, over several lines. -/
def write (value : JsonValue) : String :=
  value.layout 0

end JsonValue

end ScreenFlow
