import ScreenFlow.Named

/-!
# Folders

A folder of text files that holds no other folders.  Paths lead to its files;
a path that leads through a file, to the folder itself or anywhere else cannot
be written to.
-/

namespace ScreenFlow

/-- The files of a folder with their texts, each name once. -/
abbrev Folder :=
  List (String × String)

/-- Why a file cannot be written. -/
inductive FolderError where
  | notFound
  | notAFolder
  | isAFolder
  deriving DecidableEq, Repr

/-- The text of an error, with its number. -/
def FolderError.message : FolderError → String
  | notFound => "No such file or directory (os error 2)"
  | notAFolder => "Not a directory (os error 20)"
  | isAFolder => "Is a directory (os error 21)"

namespace Folder

def file? (folder : Folder) (name : String) : Option String :=
  folder.lookup name

/-- The file that a path leads to.  Steps that stay in place do not count,
unless the path ends with one. -/
def nameOf (folder : Folder) (path : String) : Except FolderError String :=
  let steps := path.toList.splitOn '/'
  let names := steps.filter fun step => step ≠ [] && step ≠ ['.']
  let isFile (name : List Char) : Bool :=
    (folder.file? (String.ofList name)).isSome
  match names with
  | [] => .error .isAFolder
  | [name] =>
      if path.toList.head? = some '/' || name = ['.', '.'] then .error .notFound
      else if steps.getLast? = some name then .ok (String.ofList name)
      else if isFile name then .error .notAFolder
      else if steps.getLast? = some [] then .error .isAFolder
      else .error .notFound
  | first :: _ => .error (if isFile first then .notAFolder else .notFound)

/-- The text of the file that a path leads to, if there is one. -/
def read (folder : Folder) (path : String) : Option String :=
  match folder.nameOf path with
  | .ok name => folder.file? name
  | .error _ => none

/-- Set the text of the file that a path leads to, which is made if it is not
there. -/
def write (folder : Folder) (path text : String) : Except FolderError Folder :=
  (folder.nameOf path).map fun name => replaced name text folder

end Folder

end ScreenFlow
