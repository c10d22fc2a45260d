import ScreenFlow.ValueTree

/-!
# Documents

A TOML document is a list of statements.  A header names the table that the
entries after it belong to, and an entry sets a value in that table or, with a
path of keys, in a table inside it.  Each table is written in one way only: by
one header, or by entries with paths, so a document that says something twice
has no meaning.
-/

namespace ScreenFlow

namespace Toml

/-- One thing that a document says. -/
inductive Statement where
  /-- The entries that follow belong to the table at a path. -/
  | table (path : List String)
  /-- The entries that follow belong to a new last item of the list of tables
  at a path. -/
  | item (path : List String)
  | entry (path : List String) (value : ValueTree)
  deriving Repr

/-- How a table has come to be there. -/
inductive Origin where
  /-- It has a header, or it is the whole document. -/
  | header
  /-- It holds a table with a header and has none of its own so far. -/
  | implied
  | path
  deriving DecidableEq, Repr

/-- A value, a table or a list of tables in a document. -/
inductive Node where
  | value (value : ValueTree)
  | table (origin : Origin) (entries : List (String × Node))
  /-- A list of tables, of which the last one is still open. -/
  | tables (earlier : List (List (String × Node)))
      (last : List (String × Node))

abbrev Entries :=
  List (String × Node)

namespace Entries

/-- A table with its origin, as a change may leave it. -/
abbrev Change :=
  Origin → Entries → Option (Origin × Entries)

/-- Change the table at the end of a path.  Tables on the way to it are made
as they are needed, with the origin `created`.  The path of an entry does not
lead into tables with a header. -/
def alter (created : Origin) (change : Change) : List String → Change
  | [], origin, entries => change origin entries
  | key :: path, origin, entries => do
      let node ←
        match entries.lookup key with
        | none => do
            let (origin, inner) ← alter created change path created []
            pure (Node.table origin inner)
        | some (.value _) => none
        | some (.tables earlier last) => do
            let (_, last) ← alter created change path .header last
            pure (.tables earlier last)
        | some (.table found inner) =>
            if created = .path ∧ found = .header then none
            else do
              let (origin, inner) ← alter created change path found inner
              pure (.table origin inner)
      return (origin, replaced key node entries)

/-- Set a value that has not been set. -/
def insertNew (key : String) (value : ValueTree) : Change :=
  fun origin entries =>
    if (entries.lookup key).isSome then none
    else some (origin, replaced key (.value value) entries)

/-- Set the value at the path of an entry.  The last table on a path is one
that only such paths lead to. -/
def insertAt (path : List String) (value : ValueTree) : Change :=
  match path with
  | [key] => insertNew key value
  | path =>
      alter .path
        (fun origin entries =>
          if origin = .path then
            insertNew (path.getLast?.getD "") value origin entries
          else none)
        path.dropLast

/-- Open the table with a key by its header. -/
def openTable (key : String) : Change := fun origin entries =>
  match entries.lookup key with
  | none => some (origin, replaced key (.table .header []) entries)
  | some (.table .implied inner) =>
      some (origin, replaced key (.table .header inner) entries)
  | some _ => none

/-- Open a new last item of the list of tables with a key. -/
def openItem (key : String) : Change := fun origin entries =>
  match entries.lookup key with
  | none => some (origin, replaced key (.tables [] []) entries)
  | some (.tables earlier last) =>
      some (origin, replaced key (.tables (earlier ++ [last]) []) entries)
  | some _ => none

end Entries

mutual

def Node.toTree : Node → ValueTree
  | .value value => value
  | .table _ entries => .table (entriesToTrees entries)
  | .tables earlier last =>
      .list (tablesToTrees earlier ++ [.table (entriesToTrees last)])

def entriesToTrees : List (String × Node) → List (String × ValueTree)
  | [] => []
  | (key, node) :: rest => (key, node.toTree) :: entriesToTrees rest

def tablesToTrees : List (List (String × Node)) → List ValueTree
  | [] => []
  | entries :: rest => .table (entriesToTrees entries) :: tablesToTrees rest

end

/-- A document of which some statements have been taken in. -/
structure Document where
  entries : Entries
  current : List String

namespace Document

def empty : Document := ⟨[], []⟩

/-- Change the table at a path of the document. -/
def change (document : Document) (path : List String)
    (act : Entries.Change) : Option Entries :=
  (Entries.alter .implied act path .header document.entries).map (·.2)

/-- Add a statement, if it goes with those before it. -/
def add (document : Document) : Statement → Option Document
  | .table path => do
      let entries ← document.change path.dropLast
        (Entries.openTable (path.getLast?.getD ""))
      return ⟨entries, path⟩
  | .item path => do
      let entries ← document.change path.dropLast
        (Entries.openItem (path.getLast?.getD ""))
      return ⟨entries, path⟩
  | .entry path value => do
      let entries ← document.change document.current
        (Entries.insertAt path value)
      return ⟨entries, document.current⟩

/-- The entries that statements say together, if they agree. -/
def ofStatements? (statements : List Statement) :
    Option (List (String × ValueTree)) := do
  let document ← statements.foldlM add empty
  return entriesToTrees document.entries

end Document

end Toml

end ScreenFlow
