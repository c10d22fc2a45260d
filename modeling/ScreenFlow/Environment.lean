/-!
# Environments

The variables that a program finds in its surroundings.
-/

namespace ScreenFlow

/-- Variables with their values, each name once. -/
abbrev Environment :=
  List (String × String)

namespace Environment

def get? (environment : Environment) (name : String) : Option String :=
  environment.lookup name

/-- Set a variable that has no value so far. -/
def addNew (environment : Environment) (name value : String) : Environment :=
  match environment.get? name with
  | some _ => environment
  | none => environment ++ [(name, value)]

end Environment

end ScreenFlow
