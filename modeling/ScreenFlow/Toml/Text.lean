import ScreenFlow.Text.Reader

/-!
# Quoted texts

The four ways to quote a text in the TOML notation.  A text in double quotes
may hold escapes, and a text in three quotes may hold line breaks.  Reading
goes through the text one character at a time; writing chooses the way in
which most characters stand for themselves.
-/

namespace ScreenFlow

namespace Toml

/-- A way to quote a text. -/
inductive Quoting where
  | basic
  | literal
  | basicBlock
  | literalBlock
  deriving DecidableEq, Repr

namespace Quoting

def quote : Quoting → Char
  | .basic | .basicBlock => '"'
  | .literal | .literalBlock => '\''

/-- Whether a backslash begins an escape. -/
def hasEscapes : Quoting → Bool
  | .basic | .basicBlock => true
  | .literal | .literalBlock => false

/-- Whether line breaks may stand between the quotes. -/
def isBlock : Quoting → Bool
  | .basicBlock | .literalBlock => true
  | .basic | .literal => false

def fence (quoting : Quoting) : List Char :=
  List.replicate (if quoting.isBlock then 3 else 1) quoting.quote

end Quoting

/-- A character that must not stand for itself between quotes, line breaks
among them. -/
def isControl (char : Char) : Bool :=
  char.toNat < 0x20 && char ≠ '\t' || char.toNat = 0x7F

/-- A character that a backslash at the end of a line removes. -/
def isFoldable (char : Char) : Bool :=
  char = ' ' || char = '\t' || char = '\n' || char = '\r'

def escaped? : Char → Option Char
  | 'b' => some '\x08'
  | 't' => some '\t'
  | 'n' => some '\n'
  | 'f' => some '\x0c'
  | 'r' => some '\r'
  | '"' => some '"'
  | '\\' => some '\\'
  | _ => none

/-- Where in a quoted text a character stands. -/
inductive Progress where
  | plain
  | escape
  /-- Within a code of which some digits are missing. -/
  | code (missing value : Nat)
  /-- Within blanks after a backslash, before or after the end of the line. -/
  | folding (isBroken : Bool)
  deriving DecidableEq, Repr

/-- How a character is to be read.  The first character after folded blanks is
read as if nothing stood before it, and a backslash before a blank begins to
fold. -/
def Progress.before (quoting : Quoting) (char : Char) : Progress → Progress
  | .escape =>
      if quoting.isBlock && isFoldable char then .folding false else .escape
  | .folding true => if isFoldable char then .folding true else .plain
  | progress => progress

/-- What ends a block after its first quote, with the quotes that still belong
to the text: up to two of them may stand before the closing three. -/
def blockEnd? (quote : Char) : List Char → Option (List Char × List Char)
  | second :: third :: rest =>
      if second = quote ∧ third = quote then
        let extra := (rest.take 2).takeWhile (· == quote)
        some (extra, rest.drop extra.length)
      else none
  | _ => none

/-- A character before a text that has been read. -/
def withFirst (char : Char) :
    Option (List Char × List Char) → Option (List Char × List Char) :=
  Option.map fun (more, left) => (char :: more, left)

/-- The text up to the closing quotes, and what follows them. -/
def textBody (quoting : Quoting) : Progress → Reader (List Char)
  | _, [] => none
  | progress, char :: rest =>
      match progress.before quoting char with
      | .plain =>
          if char = quoting.quote then
            if quoting.isBlock then
              match blockEnd? quoting.quote rest with
              | some ending => some ending
              | none => withFirst char (textBody quoting .plain rest)
            else some ([], rest)
          else if char = '\\' && quoting.hasEscapes then
            textBody quoting .escape rest
          else if char = '\n' && quoting.isBlock then
            withFirst char (textBody quoting .plain rest)
          else if char = '\r' && quoting.isBlock && rest.head? == some '\n' then
            textBody quoting .plain rest
          else if isControl char then none
          else withFirst char (textBody quoting .plain rest)
      | .escape =>
          match escaped? char with
          | some char => withFirst char (textBody quoting .plain rest)
          | none =>
              if char = 'u' then textBody quoting (.code 4 0) rest
              else if char = 'U' then textBody quoting (.code 8 0) rest
              else none
      | .code missing value => do
          let code := 16 * value + (← hexDigit? char)
          if missing ≤ 1 then
            let char ← charOfCode? code
            withFirst char (textBody quoting .plain rest)
          else textBody quoting (.code (missing - 1) code) rest
      | .folding isBroken =>
          if char = '\n' then textBody quoting (.folding true) rest
          else if char = '\r' then
            if rest.head? == some '\n' then
              textBody quoting (.folding isBroken) rest
            else none
          else if char = ' ' || char = '\t' then
            textBody quoting (.folding isBroken) rest
          else none

/-- A line break, if the text goes on with one. -/
def skipsBreak : Reader Bool
  | '\n' :: rest => some (true, rest)
  | '\r' :: '\n' :: rest => some (true, rest)
  | text => some (false, text)

/-- A text on one line, after its opening quote. -/
def lineText (quoting : Quoting) : Reader String :=
  String.ofList <$> textBody quoting .plain

/-- A text in three quotes, after the opening ones.  A line break right after
them does not belong to it. -/
def blockText (quoting : Quoting) : Reader String := do
  discard skipsBreak
  lineText quoting

/-- A text in any of the four ways. -/
def quotedText : Reader String
  | '"' :: '"' :: '"' :: rest => blockText .basicBlock rest
  | '\'' :: '\'' :: '\'' :: rest => blockText .literalBlock rest
  | '"' :: rest => lineText .basic rest
  | '\'' :: rest => lineText .literal rest
  | _ => none

def hasTripleQuote : List Char → Bool
  | [] => false
  | char :: rest =>
      (char :: rest.take 2) == ['\'', '\'', '\''] || hasTripleQuote rest

/-- Whether a text can stand in single quotes. -/
def canBeLiteral (text : List Char) : Bool :=
  !hasTripleQuote text && text.getLast? ≠ some '\'' &&
    text.all fun char => char = '\n' || !isControl char

/-- The way in which a text is written.  Single quotes are taken where they
save an escape and can be taken. -/
def Quoting.ofText (text : List Char) : Quoting :=
  let hasBreak := text.contains '\n'
  if (text.contains '"' || text.contains '\\') && canBeLiteral text then
    if hasBreak || text.contains '\'' then .literalBlock else .literal
  else if hasBreak then .basicBlock else .basic

def escapedChar (isBlock : Bool) (char : Char) : List Char :=
  match char with
  | '\x08' => ['\\', 'b']
  | '\t' => ['\\', 't']
  | '\n' => if isBlock then ['\n'] else ['\\', 'n']
  | '\x0c' => ['\\', 'f']
  | '\r' => ['\\', 'r']
  | '"' => ['\\', '"']
  | '\\' => ['\\', '\\']
  | other =>
      if isControl other then
        '\\' :: 'u' :: hexDigits upperHexDigit 4 other.toNat
      else [other]

def Quoting.encode (quoting : Quoting) (text : List Char) : List Char :=
  if quoting.hasEscapes then text.flatMap (escapedChar quoting.isBlock)
  else text

/-- A text in quotes.  A text with line breaks begins on a line of its own. -/
def quoted (text : String) : List Char :=
  let chars := text.toList
  let quoting := Quoting.ofText chars
  quoting.fence ++ (if chars.contains '\n' then ['\n'] else []) ++
    quoting.encode chars ++ quoting.fence

end Toml

end ScreenFlow
