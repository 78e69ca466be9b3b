import PagedQuery.EnvFile.Assignment
import PagedQuery.Json.Value

/-!
# Loading an environment file

The assignments of a file are added to the environment in order. A variable
that already has a value keeps it. A variable in a value stands for its value
in the environment and, if it has none there, for the last value that the file
gave it. The environment is a row of assignments, `NAME=value`, and what a name
stands for in it is what follows the name and an equals sign, so that a name may
reach into a value: with `A=b=c` the name `A=b` stands for `c`. Assignments in
front of an error are in force.
-/
namespace PagedQuery

abbrev Environment := Fields Text

/-- What follows a name and an equals sign in an assignment. -/
def Environment.value? (environment : Environment) (name : Text) : Option Text :=
  let beginning := name ++ ['=']
  environment.findSome? fun (key, value) =>
    let assignment := key ++ '=' :: value
    if beginning.isPrefixOf assignment then some (assignment.drop beginning.length) else none

namespace EnvFile

/-- The environment, and the values that the file gave so far. -/
structure Loading where
  environment : Environment
  written : Fields Text := []

namespace Loading

/-- The value that a variable stands for. -/
def lookup (l : Loading) : Lookup := fun name =>
  ((l.environment.value? name).orElse fun _ => Fields.get? name l.written).getD []

def assign (l : Loading) (key value : Text) : Loading :=
  { environment :=
      if (Fields.get? key l.environment).isSome then l.environment
      else Fields.insert key value l.environment
    written := Fields.insert key value l.written }

/-- The environment after the given logical lines. -/
def run (l : Loading) : List (Except ParseError Text) → Except ParseError Environment
  | [] => .ok l.environment
  | .error e :: _ => .error e
  | .ok line :: lines =>
    match assignment? l.lookup line with
    | .error e => .error e
    | .ok none => run l lines
    | .ok (some (key, value)) => run (l.assign key (value.getD [])) lines

end Loading

def load (environment : Environment) (file : Text) : Except ParseError Environment :=
  Loading.run { environment } (logicalLines file)

end EnvFile

end PagedQuery
