import ScreenFlow.Settings.Path
import ScreenFlow.Settings.Reading
import ScreenFlow.Toml.Reader
import ScreenFlow.Environment

/-!
# Sources of settings

The settings come from three sources.  What a file says covers the defaults,
and what variables say covers both, place by place.  Of two variables for the
same place the later one counts.
-/

namespace ScreenFlow

namespace Settings

/-- Why there are no settings. -/
inductive LoadError where
  | malformedFile
  | unusableValue
  deriving DecidableEq, Repr

/-- What the names of variables about settings begin with, in lower case. -/
def variableStart : List Char :=
  "wallet_flows__".toList

/-- A name in which two underscores stand for a point. -/
def pointed : List Char → List Char
  | '_' :: '_' :: rest => '.' :: pointed rest
  | char :: rest => char :: pointed rest
  | [] => []

/-- The place that a variable sets, if it is about settings.  The case of its
name does not count. -/
def placeOf? (name : String) : Option (List ValueTree.Step) :=
  let lower := name.toLower.toList
  if variableStart.isPrefixOf lower then
    some (ValueTree.pathOf
      (String.ofList (pointed (lower.drop variableStart.length))))
  else none

/-- The value that a text stands for: a truth value, an integer or a binary
number where it reads as one. -/
def valueOf (text : String) : ValueTree :=
  match text.toLower with
  | "true" => .bool true
  | "false" => .bool false
  | _ =>
      match Numeral.integer? text, Numeral.real? text with
      | some value, _ => .integer value
      | none, some value => .real value
      | none, none => .text text

/-- Lay what a variable says over a tree. -/
def layVariable (tree : ValueTree) (given : String × String) : ValueTree :=
  match placeOf? given.1 with
  | some path => tree.place (valueOf given.2) path
  | none => tree

/-- Lay an entry of a file over a tree.  Its key is a path. -/
def layEntry (tree : ValueTree) (entry : String × ValueTree) : ValueTree :=
  tree.place entry.2 (ValueTree.pathOf entry.1.toLower)

/-- The settings that a file, if there is one, and an environment lead to. -/
def load (file : Option String) (environment : Environment) :
    Except LoadError Settings := do
  let entries ←
    match file.map Toml.read? with
    | none => pure []
    | some (some entries) => pure entries
    | some none => throw .malformedFile
  let tree := environment.foldl layVariable
    (entries.foldl layEntry (toTree {}))
  match ofTree? tree with
  | some settings => return settings
  | none => throw .unusableValue

end Settings

end ScreenFlow
