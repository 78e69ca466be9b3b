import PagedQuery.Coordinator
import PagedQuery.Postgres.Argument
import PagedQuery.Postgres.Login

/-!
# Sessions with a PostgreSQL server

A server lets a user in and then runs statements with their arguments, one
after another. The first cell of the count statement's only row is the number
of rows; it has to be an integer that is not negative. The cells of other rows
have to be texts or empty. The ping is `SELECT 1`.
A coordinator connects only if its settings have no fault, its dialect is that
of the server and a database is named.
-/
namespace PagedQuery.Postgres

inductive Cell where
  | null
  | integer (n : Int64)
  | text (t : Text)
  deriving DecidableEq, Repr, Inhabited

abbrev Row := List Cell

/-- A row of a page: a text for each cell that is not empty. -/
abbrev TextRow := List (Option Text)

/-- The row as texts, its first cell being that of the given column. -/
def textsFrom (column : Nat) : Row → Except DatabaseError TextRow
  | [] => .ok []
  | .integer _ :: _ => .error (.notText column)
  | .null :: cells => (textsFrom (column + 1) cells).map (none :: ·)
  | .text t :: cells => (textsFrom (column + 1) cells).map (some t :: ·)

def textRows (rows : List Row) : Except DatabaseError (List TextRow) := rows.mapM (textsFrom 0)

structure Server (σ : Type) where
  login : Login → σ → Except DatabaseError Unit × σ
  run : Text → List Argument → σ → Except DatabaseError (List Row) × σ

/-- The number in the first cell of the first row. -/
def countOf : List Row → Except ExecutorError UInt64
  | [] => .error (.database .noRows)
  | [] :: _ => .error (.database .noColumns)
  | (.null :: _) :: _ => .error (.database .unexpectedNull)
  | (.text _ :: _) :: _ => .error (.database .notInteger)
  | (.integer n :: _) :: _ =>
    if n < 0 then .error (.decode ("negative row count: ".toList ++ Text.ofInt n.toInt))
    else .ok (Word.ofPositive n)

namespace Server

variable {σ : Type}

def executor (server : Server σ) : Executor σ TextRow where
  count statement parameters := fun state =>
    match server.run statement (parameters.map Argument.ofValue) state with
    | (.error error, state) => (.error (.database error), state)
    | (.ok rows, state) => (countOf rows, state)
  query statement parameters := fun state =>
    match server.run statement (parameters.map Argument.ofValue) state with
    | (.error error, state) => (.error (.database error), state)
    | (.ok rows, state) =>
      match textRows rows with
      | .error error => (.error (.database error), state)
      | .ok rows => (.ok rows, state)

def pingStatement : Text := "SELECT 1".toList

/-- The server answers with a row. -/
def ping (server : Server σ) (state : σ) : Except DatabaseError Unit × σ :=
  match server.run pingStatement [] state with
  | (.error error, state) => (.error error, state)
  | (.ok [], state) => (.error .noRows, state)
  | (.ok (_ :: _), state) => (.ok (), state)

def session (server : Server σ) : Session σ TextRow :=
  { executor := server.executor, ping := server.ping }

/-- The planner and the database of settings that ask for a server of this kind. -/
def target (s : Settings) : Except SettingsFault (Planner × DatabaseSettings) :=
  match s.planner with
  | .error fault => .error fault
  | .ok planner =>
    if planner.dialect ≠ .postgres then .error (.invalid (.foreignDialect planner.dialect))
    else
      match s.database with
      | none => .error (.invalid .noDatabase)
      | some database => .ok (planner, database)

def connect (server : Server σ) (s : Settings) (state : σ) :
    Except CoordinatorError (Coordinator σ TextRow) × σ :=
  match target s with
  | .error fault => (.error (.settings fault), state)
  | .ok (planner, database) =>
    match Login.ofSettings database with
    | .error fault => (.error (.connection (.configuration fault)), state)
    | .ok login =>
      match server.login login state with
      | (.error error, state) => (.error (.connection error), state)
      | (.ok (), state) =>
        (.ok { planner, strict := s.paging.strictBuilders, session := some server.session }, state)

end Server

end PagedQuery.Postgres
