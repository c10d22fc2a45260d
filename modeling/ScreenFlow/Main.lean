import ScreenFlow.Program

/-!
# The command line

Runs the program in the current folder.
-/

namespace ScreenFlow

/-- The text of a file, or nothing where it cannot be read. -/
def readIfPresent (path : String) : IO (Option String) := do
  try
    return some (← IO.FS.readFile path)
  catch _ =>
    return none

/-- The environment of the process, as the system lists them. -/
def readEnvironment : IO Environment := do
  let listed := (← readIfPresent "/proc/self/environ").getD ""
  return (listed.splitOn "\x00").filterMap fun entry =>
    match entry.splitOn "=" with
    | name :: first :: rest => some (name, "=".intercalate (first :: rest))
    | _ => none

/-- Print why the program fails, with the status to end with. -/
def reportFailure (failure : Program.Failure) : IO UInt32 := do
  IO.eprintln (failure.line?.getD Program.usage)
  return failure.status.toUInt32

/-- The failure that an error of the system stands for, if a folder of text
files can show it. -/
def folderError? : IO.Error → Option FolderError
  | .noFileOrDirectory .. => some .notFound
  | .inappropriateType _ code _ =>
      if code = 20 then some .notAFolder
      else if code = 21 then some .isAFolder
      else none
  | _ => none

def performTask : Program.Task → IO UInt32
  | .print text => do
      IO.print text
      return 0
  | .write path text => do
      try
        IO.FS.writeFile path text
        IO.print (Program.writtenLine path)
        return 0
      catch error =>
        match folderError? error with
        | some known => reportFailure (.folder known)
        | none =>
            IO.eprintln s!"Error: {error}"
            return 1

/-- Run the program with its arguments, for the status to end with. -/
def runProgram (arguments : List String) : IO UInt32 := do
  let plan := Program.plan arguments (← readEnvironment)
    (← readIfPresent Program.settingsFile)
    (← readIfPresent Program.environmentFile)
  if plan.hasBrokenFile then
    IO.eprintln "⚠️  Ignoring unreadable .env file"
  match plan.task with
  | .ok task => performTask task
  | .error failure => reportFailure failure

end ScreenFlow

def main (arguments : List String) : IO UInt32 :=
  ScreenFlow.runProgram arguments
