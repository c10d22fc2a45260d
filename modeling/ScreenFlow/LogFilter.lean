import ScreenFlow.Decimal.Numeral
import ScreenFlow.Text.Class

/-!
# Log filters

A log filter is a list of directives with commas between them.  A directive is
a level, or a target with a span, with fields in braces and with a level, each
of which may be missing.  Only what is wrong with a filter is worked out here.
-/

namespace ScreenFlow

namespace LogFilter

/-- Why a text is no filter. -/
inductive Fault where
  | malformed
  /-- What stands in the place of the level is no level. -/
  | unknownLevel
  deriving DecidableEq, Repr

def Fault.message : Fault → String
  | malformed => "invalid filter directive"
  | unknownLevel =>
      "error parsing level filter: expected one of \"off\", \"error\", " ++
        "\"warn\", \"info\", \"debug\", \"trace\", or a number 0-5"

/-- Whether a text is a level: a word in any case, a number up to five, or
nothing. -/
def isLevel (text : List Char) : Bool :=
  let word := String.ofList text
  ["", "off", "error", "warn", "info", "debug", "trace"].contains
      (String.ofList (text.map Char.toLower)) ||
    (Numeral.natural? word).any (· ≤ 5)

/-- The part of a directive that the next character belongs to. -/
inductive Part where
  | start
  | word
  | span
  | field (isEmpty : Bool)
  | fields
  | target
  /-- The level, from a position in the directive. -/
  | level (position : Nat)
  deriving DecidableEq, Repr

/-- The part that the character after the one at `position` belongs to. -/
def Part.step (position : Nat) : Part → Char → Option Part
  | .start, char =>
      if char = '[' then some .span
      else if ['-', ':', '_'].contains char || isLetterOrDigit char then
        some .word
      else none
  | .word, char =>
      if char = '=' then some (.level (position + 1))
      else if char = '[' then some .span
      else some .word
  | .span, char =>
      if char = ']' then some .target
      else if char = '\x7b' then some (.field true)
      else some .span
  | .field isEmpty, char =>
      if char = '\x7d' then if isEmpty then none else some .fields
      else some (.field false)
  | .fields, char => if char = ']' then some .target else none
  | .target, char =>
      if char = '=' then some (.level (position + 1)) else none
  | .level first, _ => some (.level first)

/-- The part that a text ends in. -/
def Part.run : Part → Nat → List Char → Option Part
  | part, _, [] => some part
  | part, position, char :: rest => do
      (← part.step position char).run (position + 1) rest

/-- What is wrong with a directive.  Blanks around it do not count for its
parts, but the level is cut out of the directive as it stands. -/
def directiveFault? (directive : List Char) : Option Fault :=
  match Part.start.run 0 (trimmedFront (trimmedBack directive)) with
  | some .word | some .target => none
  | some (.level first) =>
      if isLevel (directive.drop first) then none else some .unknownLevel
  | _ => some .malformed

/-- What is wrong with a filter.  Directives that are empty are passed over. -/
def fault? (text : String) : Option Fault :=
  ((text.toList.splitOn ',').filter fun directive => !directive.isEmpty)
    |>.findSome? directiveFault?

/-- What is wrong with the filter that is used: the given one if there is a
sound one, and the other one otherwise. -/
def choiceFault? (given : Option String) (other : String) : Option Fault :=
  if given.any fun text => (fault? text).isNone then none else fault? other

end LogFilter

end ScreenFlow
