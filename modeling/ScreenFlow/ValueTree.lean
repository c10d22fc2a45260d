import ScreenFlow.Decimal.Shortest
import ScreenFlow.Named

/-!
# Trees of named values

What one source of settings says, before anybody asks for a setting.  A tree
is laid over another one name by name: names count in lower case, a table only
adds to what it covers, and any other value takes the place of what it covers.
-/

namespace ScreenFlow

/-- A value, a list of values or a table of named values. -/
inductive ValueTree where
  /-- A place that nothing has been said about. -/
  | unset
  | bool (value : Bool)
  | integer (value : Int)
  | real (value : Binary64)
  | text (value : String)
  | list (items : List ValueTree)
  | table (entries : List (String × ValueTree))
  deriving Repr

namespace ValueTree

def empty : ValueTree := .table []

/-- What a table holds under a name.  Other values hold nothing. -/
def get? (name : String) : ValueTree → Option ValueTree
  | .table entries => entries.lookup name
  | _ => none

/-- Set what a table holds under a name.  Any other value becomes a table. -/
def set (tree : ValueTree) (name : String) (value : ValueTree) : ValueTree :=
  match tree with
  | .table entries => .table (replaced name value entries)
  | _ => .table [(name, value)]

mutual

/-- Lay a tree over a base. -/
def overlay (base : ValueTree) : ValueTree → ValueTree
  | .table entries => overlayEntries base entries
  | other => other

/-- Lay the entries of a table over a base, one after the other. -/
def overlayEntries (base : ValueTree) :
    List (String × ValueTree) → ValueTree
  | [] => base
  | (name, value) :: rest =>
      let lower := name.toLower
      overlayEntries
        (base.set lower (overlay ((base.get? lower).getD empty) value)) rest

end

/-- A step on the way to a place. -/
inductive Step where
  | name (name : String)
  | index (index : Nat)
  /-- An index that is counted from the end. -/
  | fromEnd (index : Nat)
  deriving DecidableEq, Repr

def items : ValueTree → List ValueTree
  | .list items => items
  | _ => []

/-- The place of an item, for a list of a length. -/
def Step.position (length : Nat) : Step → Nat
  | .index forward => forward
  | .fromEnd backward => length - backward
  | .name _ => length

/-- Lay a tree over what stands at a place, on the way to which there may be
nothing yet: tables and lists are made as they are needed. -/
def place (base incoming : ValueTree) : List Step → ValueTree
  | [] => base.overlay incoming
  | .name name :: path =>
      let found := (base.get? name).getD (if path.isEmpty then empty else .unset)
      base.set name (found.place incoming path)
  | step :: path =>
      let items := base.items
      let position := step.position items.length
      let padded :=
        items ++ List.replicate (position + 1 - items.length) .unset
      .list (padded.modify position fun item => item.place incoming path)

end ValueTree

end ScreenFlow
