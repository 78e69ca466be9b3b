import PagedQuery.EnvFile.Load
import PagedQuery.FileTree
import PagedQuery.Settings.Stored
import PagedQuery.Toml.Document

/-!
# Loading settings

Settings are loaded from a TOML file. A variable of the environment names it;
an environment file, if there is one, adds to the environment first. Without
the variable a file with the default name is taken, if it is there.
-/
namespace PagedQuery

/-- Why settings were not loaded. -/
inductive SettingsError where
  | file (error : FileError)
  /-- the file is no TOML document, or does not hold settings -/
  | malformed
  | envFile (error : EnvFile.ParseError)
  | fault (fault : SettingsFault)
  deriving DecidableEq, Repr

def SettingsError.message? : SettingsError → Option Text
  | file error => some ("IO error: ".toList ++ error.message)
  | malformed => none
  | envFile error => some ("Dotenvy error: ".toList ++ error.message)
  | fault f => some f.message

namespace Settings

def checked (s : Settings) : Except SettingsError Settings :=
  match s.planner with
  | .ok _ => .ok s
  | .error fault => .error (.fault fault)

def ofToml (document : Text) : Except SettingsError Settings :=
  match (Toml.parse? document).bind fun entries => ofStored? .toml (.table .header entries) with
  | some s => s.checked
  | none => .error .malformed

def ofFile (tree : FileTree) (path : Text) : Except SettingsError Settings :=
  match tree.read path with
  | .ok document => ofToml document
  | .error e => .error (.file e)

/-- The file with more assignments for the environment. -/
def envPath : Text := ".env".toList

def fullEnvironment (tree : FileTree) (environment : Environment) :
    Except SettingsError Environment :=
  match tree.read envPath with
  | .error _ => .ok environment
  | .ok file =>
    match EnvFile.load environment file with
    | .ok environment => .ok environment
    | .error e => .error (.envFile e)

/-- The settings found in a working directory and an environment. -/
def load (tree : FileTree) (environment : Environment) : Except SettingsError Settings :=
  match fullEnvironment tree environment with
  | .error e => .error e
  | .ok environment =>
    match Fields.get? pathVariable environment with
    | some path => ofFile tree path
    | none =>
      if tree.has defaultPath then ofFile tree defaultPath
      else .error (.fault (.invalid .noPath))

end Settings

end PagedQuery
