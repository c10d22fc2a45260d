import ScreenFlow.Environment
import ScreenFlow.Environment.Lines
import ScreenFlow.Text.Reader

/-!
# Environment files

An environment file sets variables, one on a line: a name, an equals sign and a
value, after which only a comment may follow.  A value may refer to variables
that are set, and variables that have a value already keep it.  Reading stops
at the first line that is not of this form.
-/

namespace ScreenFlow

namespace EnvironmentFile

/-- What the next character of a value is read as.  Double quotes stay open
while a reference or an escape inside them is read. -/
inductive ValueState where
  | plain (isQuoted : Bool)
  | escape (isQuoted : Bool)
  | literal
  /-- Part of the name of a variable after its mark. -/
  | name (isQuoted : Bool) (letters : List Char)
  /-- Part of the name of a variable in braces. -/
  | braced (isQuoted : Bool) (letters : List Char)
  | over
  | comment
  deriving DecidableEq, Repr

/-- The value of the variable with a name.  One that is not set has none. -/
def valueOf (environment : Environment) (name : List Char) : List Char :=
  ((environment.get? (String.ofList name)).getD "").toList

/-- The state after one more character of a value, and what that character
adds to the value.  The character after a name is part of the value, whatever
it is. -/
def ValueState.step (environment : Environment) :
    ValueState → Char → Option (ValueState × List Char)
  | .plain isQuoted, char =>
      if char = '$' then some (.name isQuoted [], [])
      else if char = '"' then some (.plain !isQuoted, [])
      else if char = '\\' then some (.escape isQuoted, [])
      else if isQuoted then some (.plain true, [char])
      else if char = '\'' then some (.literal, [])
      else if char = ' ' || char = '\t' then some (.over, [])
      else some (.plain false, [char])
  | .escape isQuoted, char =>
      if ['\\', '\'', '"', '$', ' '].contains char then
        some (.plain isQuoted, [char])
      else if char = 'n' then some (.plain isQuoted, ['\n'])
      else none
  | .literal, char =>
      if char = '\'' then some (.plain false, []) else some (.literal, [char])
  | .name isQuoted letters, char =>
      if isLetterOrDigit char then some (.name isQuoted (letters ++ [char]), [])
      else if char = '\x7b' && letters.isEmpty then some (.braced isQuoted [], [])
      else if char = '$' then
        some (.name isQuoted [], valueOf environment letters)
      else some (.plain isQuoted, valueOf environment letters ++ [char])
  | .braced isQuoted letters, char =>
      if char = '\x7d' then some (.plain isQuoted, valueOf environment letters)
      else some (.braced isQuoted (letters ++ [char]), [])
  | .over, char =>
      if char = ' ' || char = '\t' then some (.over, [])
      else if char = '#' then some (.comment, [])
      else none
  | .comment, _ => some (.comment, [])

/-- What the end of a value adds to it, if the value may end there. -/
def ValueState.finish? (environment : Environment) : ValueState → Option (List Char)
  | .plain isQuoted | .escape isQuoted => if isQuoted then none else some []
  | .name isQuoted letters =>
      if isQuoted then none else some (valueOf environment letters)
  | .literal | .braced _ _ => none
  | .over | .comment => some []

/-- The value that characters write, read on from a state. -/
def value? (environment : Environment) : ValueState → List Char → Option (List Char)
  | state, [] => state.finish? environment
  | state, char :: rest => do
      let (state, added) ← state.step environment char
      return added ++ (← value? environment state rest)

def name : Reader (List Char) := do
  let first ← Reader.ofClass fun char => char.isAlpha || char = '_'
  let rest ← Reader.run fun char =>
    char.isAlphanum || char = '_' || char = '.'
  return first :: rest

/-- A name and what stands between it and its value. -/
def assigned : Reader (List Char) := do
  let name ← name
  Reader.skipRun isBlank
  Reader.exactly '='
  return name

/-- A name that is assigned to, which the word `export` may precede. -/
def target : Reader (List Char) :=
  assigned <|> do
    let word ← name
    Reader.require (word = "export".toList)
    Reader.skipRun isBlank
    assigned

/-- Set the variable that a line sets.  There is no answer if the line has
another form; a line without anything sets nothing. -/
def addLine (environment : Environment) (line : List Char) : Option Environment :=
  match trimmedFront (trimmedBack line) with
  | [] | '#' :: _ => some environment
  | text => do
      let (name, rest) ← target text
      let value ←
        match trimmedFront rest with
        | [] | '#' :: _ => some []
        | written => value? environment (.plain false) written
      return environment.addNew (String.ofList name) (String.ofList value)

/-- Set the variables that lines set, up to the first line of another form.
The answer tells whether there is one. -/
def addLines (environment : Environment) : List (List Char) → Environment × Bool
  | [] => (environment, false)
  | line :: rest =>
      match addLine environment line with
      | some added => addLines added rest
      | none => (environment, true)

/-- Set the variables that a file sets.  The answer tells whether the file is
broken somewhere. -/
def apply (environment : Environment) (text : String) : Environment × Bool :=
  let chars := text.toList
  let (lines, isBrokenOff) :=
    lines (if chars.head? = some '\ufeff' then chars.tail else chars)
  let (added, isBroken) := addLines environment lines
  (added, isBroken || isBrokenOff)

end EnvironmentFile

end ScreenFlow
