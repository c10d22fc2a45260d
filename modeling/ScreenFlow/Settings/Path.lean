import ScreenFlow.Decimal.Numeral
import ScreenFlow.ValueTree

/-!
# Paths to settings

A path names a place in a tree: names with points between them, and indices in
brackets.  A text that is no path is taken as one name.
-/

namespace ScreenFlow

namespace ValueTree

def isNameChar (char : Char) : Bool :=
  char.isAlphanum || char = '_' || char = '-' || char = ' '

def indexBlanks : Reader Unit :=
  Reader.skipRun fun char =>
    char = ' ' || char = '\t' || char = '\n' || char = '\r'

def nameStep : Reader Step := do
  return .name (String.ofList (← Reader.run1 isNameChar))

/-- A step that is an index, after its opening bracket. -/
def indexStep : Reader Step := do
  let isFromEnd ← Reader.skips '-'
  indexBlanks
  let index ← Numeral.digits
  indexBlanks
  Reader.exactly ']'
  Reader.require (index ≤ Numeral.greatestInteger)
  return if isFromEnd then .fromEnd index else .index index

/-- The steps after the first one.  `fuel` bounds their number. -/
def laterSteps : Nat → Reader (List Step)
  | 0 => failure
  | fuel + 1 => do
      if ← Reader.atEnd then
        return []
      else
        let step ← if ← Reader.skips '.' then nameStep
          else do
            Reader.exactly '['
            indexStep
        return step :: (← laterSteps fuel)

/-- The place that a text names. -/
def pathOf (text : String) : List Step :=
  let chars := text.toList
  let read := Reader.readAll
    (do
      let first ← nameStep
      return first :: (← laterSteps (chars.length + 1)))
    chars
  read.getD [.name text]

end ValueTree

end ScreenFlow
