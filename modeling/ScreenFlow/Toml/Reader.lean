import ScreenFlow.Toml.Document
import ScreenFlow.Toml.Scalar
import ScreenFlow.Toml.Text

/-!
# Reading documents

The grammar of the TOML notation.  Values stand inside each other to a limited
depth, and the path of a key has a limited length.
-/

namespace ScreenFlow

namespace Toml

/-- The greatest depth of lists and tables inside each other, and the greatest
number of keys in a path. -/
def depthLimit : Nat := 79

def blanks : Reader Unit :=
  Reader.skipRun fun char => char = ' ' || char = '\t'

/-- A comment to the end of its line, if there is one. -/
def comment : Reader Unit := do
  if ← Reader.skips '#' then
    Reader.skipRun fun char => !isControl char

/-- Blanks, comments and line breaks, as many as there are.  `fuel` bounds the
number of lines. -/
def spacing : Nat → Reader Unit
  | 0 => pure ()
  | fuel + 1 => do
      blanks
      comment
      if ← skipsBreak then spacing fuel

def isKeyChar (char : Char) : Bool :=
  char.isAlphanum || char = '_' || char = '-'

/-- A key without quotes. -/
def bareKey : Reader String :=
  String.ofList <$> Reader.run1 isKeyChar

def key : Reader String
  | '"' :: rest => lineText .basic rest
  | '\'' :: rest => lineText .literal rest
  | text => bareKey text

/-- A path of keys with points and blanks between them.  `fuel` bounds the
number of keys. -/
def keyPath : Nat → Reader (List String)
  | 0 => failure
  | fuel + 1 => do
      blanks
      let first ← key
      blanks
      if ← Reader.skips '.' then
        return first :: (← keyPath fuel)
      else
        return [first]

mutual

/-- A value.  `depth` bounds the depth of what stands inside it, and `fuel`
the number of its parts. -/
def value (depth : Nat) : Nat → Reader ValueTree
  | 0 => failure
  | fuel + 1 => do
      match ← Reader.peek? with
      | some '"' | some '\'' => return .text (← quotedText)
      | some '[' =>
          Reader.exactly '['
          Reader.require (0 < depth)
          return .list (← items (depth - 1) fuel)
      | some '\x7b' =>
          Reader.exactly '\x7b'
          Reader.require (0 < depth)
          blanks
          let statements ←
            if ← Reader.skips '\x7d' then pure []
            else fields (depth - 1) fuel
          match Document.ofStatements? statements with
          | some entries => return .table entries
          | none => failure
      | _ => scalar

/-- The items of a list up to its closing bracket.  A comma may stand after
the last one. -/
def items (depth : Nat) : Nat → Reader (List ValueTree)
  | 0 => failure
  | fuel + 1 => do
      spacing fuel
      if ← Reader.skips ']' then
        return []
      else
        let first ← value depth fuel
        spacing fuel
        if ← Reader.skips ',' then
          return first :: (← items depth fuel)
        else
          Reader.exactly ']'
          return [first]

/-- The entries of a table that is a value, on one line and up to its closing
brace. -/
def fields (depth : Nat) : Nat → Reader (List Statement)
  | 0 => failure
  | fuel + 1 => do
      let path ← keyPath depthLimit
      Reader.exactly '='
      blanks
      let first ← value depth fuel
      blanks
      if ← Reader.skips ',' then
        return .entry path first :: (← fields depth fuel)
      else
        Reader.exactly '\x7d'
        return [.entry path first]

end

/-- A header of a table or of an item of a list of tables. -/
def header : Reader Statement := do
  Reader.exactly '['
  if ← Reader.skips '[' then
    let path ← keyPath depthLimit
    Reader.literal [']', ']']
    return .item path
  else
    let path ← keyPath depthLimit
    Reader.exactly ']'
    return .table path

/-- A key with its value. -/
def entry (fuel : Nat) : Reader Statement := do
  let path ← keyPath depthLimit
  Reader.exactly '='
  blanks
  return .entry path (← value depthLimit fuel)

/-- A statement, if the line has one before its comment. -/
def statement? (fuel : Nat) : Reader (Option Statement) := do
  match ← Reader.peek? with
  | none | some '#' | some '\n' | some '\r' => return none
  | some '[' => some <$> header
  | some _ => some <$> entry fuel

/-- The statements up to the end of the text.  `fuel` bounds the number of
lines. -/
def statements : Nat → Reader (List Statement)
  | 0 => failure
  | fuel + 1 => do
      blanks
      let statement ← statement? fuel
      blanks
      comment
      if ← skipsBreak then
        return statement.toList ++ (← statements fuel)
      else
        Reader.require (← Reader.atEnd)
        return statement.toList

/-- The entries of a whole document, which a byte order mark may precede. -/
def read? (text : String) : Option (List (String × ValueTree)) := do
  let chars := text.toList
  let read ← Reader.readAll
    (do
      discard (Reader.skips '\ufeff')
      statements (chars.length + 1))
    chars
  Document.ofStatements? read

end Toml

end ScreenFlow
