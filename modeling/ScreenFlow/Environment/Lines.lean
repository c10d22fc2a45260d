import ScreenFlow.Text.Class

/-!
# Lines of an environment file

A line goes on beyond its end while a quote is open.  The last line is broken
off if a quote is still open in it, or if nothing follows a blank or a
backslash at its end.  A mark for comments counts after a blank and cuts off
the rest of its line.
-/

namespace ScreenFlow

namespace EnvironmentFile

/-- What the next character of a line is read as. -/
inductive LineState where
  /-- Part of a value that may end here. -/
  | complete
  | afterBlank
  | escape
  | quoted (quote : Char)
  | quotedEscape (quote : Char)
  | comment
  deriving DecidableEq, Repr

namespace LineState

/-- How a character outside quotes is read, blanks apart. -/
def outside (char : Char) : LineState :=
  if char = '\\' then .escape
  else if char = '"' || char = '\'' then .quoted char
  else .complete

/-- The state of a line after one more character. -/
def step : LineState → Char → LineState
  | .complete, char =>
      if isBlank char && char ≠ '\n' && char ≠ '\r' then .afterBlank
      else outside char
  | .afterBlank, char => if char = '#' then .comment else outside char
  | .escape, _ => .complete
  | .quoted quote, char =>
      if char = '\\' then .quotedEscape quote
      else if char = quote then .complete
      else .quoted quote
  | .quotedEscape quote, _ => .quoted quote
  | .comment, _ => .comment

/-- The state after a piece of text, and the text as far as it is not part of
a comment. -/
def scan : LineState → List Char → LineState × List Char
  | state, [] => (state, [])
  | state, char :: rest =>
      match state.step char with
      | .comment => (.comment, [])
      | state =>
          let (final, kept) := scan state rest
          (final, char :: kept)

end LineState

/-- The pieces of a text that end with a line feed, and what follows them. -/
def pieces : List Char → List (List Char)
  | [] => []
  | char :: rest =>
      if char = '\n' then ['\n'] :: pieces rest
      else
        match pieces rest with
        | [] => [[char]]
        | first :: more => (char :: first) :: more

def withoutBreak (line : List Char) : List Char :=
  match line.reverse with
  | '\n' :: '\r' :: rest => rest.reverse
  | '\n' :: rest => rest.reverse
  | _ => line

/-- The lines that pieces make up, and whether the text breaks off within a
line.  `held` is the beginning of a line that has not ended, and a line that
begins with a mark for comments is taken for an empty one. -/
def joinPieces (held : List Char) (state : LineState) :
    List (List Char) → List (List Char) × Bool
  | [] => ([], state ≠ .complete)
  | piece :: rest =>
      let proceed (line : List Char) : List (List Char) × Bool :=
        let (more, isBroken) := joinPieces [] .complete rest
        (line :: more, isBroken)
      if (trimmedFront (held ++ piece)).head? = some '#' then proceed []
      else
        match state.scan piece with
        | (.complete, kept) => proceed (withoutBreak (held ++ kept))
        | (.comment, kept) => proceed (held ++ kept)
        | (state, kept) => joinPieces (held ++ kept) state rest

/-- The lines of a text, and whether the last one is broken off. -/
def lines (text : List Char) : List (List Char) × Bool :=
  joinPieces [] .complete (pieces text)

end EnvironmentFile

end ScreenFlow
