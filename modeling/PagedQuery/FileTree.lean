import PagedQuery.Json.Value

/-!
# File trees

The files and directories below a working directory, by the ways that lead to
them. A path is followed step by step: an empty step and `.` stay, `..` goes up,
and only a directory can be left for anything else. Above the working directory
nothing is known by name. A file is put down at the end of its path, with all
the directories that the path passes through.
-/
namespace PagedQuery

inductive FileError where
  | notFound
  | notDirectory
  | isDirectory
  deriving DecidableEq, Repr

def FileError.message : FileError → Text
  | notFound => "No such file or directory (os error 2)".toList
  | notDirectory => "Not a directory (os error 20)".toList
  | isDirectory => "Is a directory (os error 21)".toList

/-- What a way leads to. -/
inductive FileNode where
  | file (content : Text)
  | directory
  deriving DecidableEq, Repr

/-- Files and directories by the steps that lead to them; of two with the same way the first counts.
A directory with something in it may be left out. -/
abbrev FileTree := List (List Text × FileNode)

namespace FileTree

/-- The steps of a path, empty ones too. -/
def steps (path : Text) : List Text := Text.parts '/' path

def current : Text := ['.']

def parent : Text := ['.', '.']

/-- The directories that the steps of a path lead to, one after another, from `way` on. -/
def passed (way : List Text) : List Text → List (List Text)
  | [] => [way]
  | step :: more =>
    let next :=
      if step = [] ∨ step = current then way
      else if step = parent then way.dropLast
      else way ++ [step]
    way :: passed next more

/-- The file put down at the end of its path. -/
def put (tree : FileTree) (path content : Text) : FileTree :=
  let ways := passed [] (steps path)
  (ways.getLast?.getD [], .file content) ::
    ways.dropLast.map (fun way => (way, FileNode.directory)) ++ tree

/-- The tree of files with the given paths, put down in the order of the paths. -/
def ofPaths (files : Fields Text) : FileTree :=
  files.foldl (fun tree (path, content) => tree.put path content) []

/-- Where a path has led. -/
inductive Position where
  | file (content : Text)
  | inside (way : List Text)
  | above
  deriving DecidableEq, Repr

/-- The file or directory below the working directory at the end of a way. -/
def find (tree : FileTree) (way : List Text) : Except FileError Position :=
  match tree.find? (·.1 = way) with
  | some (_, .file content) => .ok (.file content)
  | some (_, .directory) => .ok (.inside way)
  | none => if tree.any (way.isPrefixOf ·.1) then .ok (.inside way) else .error .notFound

/-- Where one more step leads. -/
def step (tree : FileTree) (p : Position) (name : Text) : Except FileError Position :=
  match p with
  | .file _ => .error .notDirectory
  | .above =>
    if name = [] ∨ name = current ∨ name = parent then .ok .above else .error .notFound
  | .inside way =>
    if name = [] ∨ name = current then .ok (.inside way)
    else if name = parent then .ok (if way = [] then .above else .inside way.dropLast)
    else tree.find (way ++ [name])

def follow (tree : FileTree) (path : Text) : Except FileError Position :=
  if path = [] then .error .notFound
  else
    let start := if path.head? = some '/' then Position.above else .inside []
    (steps path).foldlM (tree.step) start

def has (tree : FileTree) (path : Text) : Bool := (tree.follow path).isOk

def read (tree : FileTree) (path : Text) : Except FileError Text :=
  match tree.follow path with
  | .ok (.file content) => .ok content
  | .ok _ => .error .isDirectory
  | .error e => .error e

end FileTree

end PagedQuery
