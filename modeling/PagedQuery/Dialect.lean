import PagedQuery.Placeholder
import PagedQuery.Text.Blank

/-!
# SQL dialects

The ten dialects and what each one asks of a statement: the style of its
placeholders, the clause that cuts a page out of a result, the function that
orders at random, whether a derived table is named with `AS`, whether a page
needs an order and whether it may lock its rows. A dialect is read from any of
its spellings in any ASCII case, with `_` or a space for `-` and blanks around.
-/
namespace PagedQuery

inductive Dialect where
  | mysql | mariadb | tidb | oceanbase | clickhouse | sqlite
  | postgres | sqlserver | oracle | oracleLegacy
  deriving DecidableEq, Repr

/-- The clause that cuts a page out of a result. -/
inductive LimitSyntax where
  | limitOffset | offsetFetch | rowNum
  deriving DecidableEq, Repr, Inhabited

/-- The text names no dialect. -/
structure UnknownDialect where
  text : Text
  deriving DecidableEq, Repr

def UnknownDialect.message (e : UnknownDialect) : Text :=
  "Unknown SQL dialect: ".toList ++ e.text

namespace Dialect

instance : Inhabited Dialect := ⟨mysql⟩

def all : List Dialect :=
  [mysql, mariadb, tidb, oceanbase, clickhouse, sqlite, postgres, sqlserver, oracle, oracleLegacy]

def name : Dialect → Text
  | mysql => "mysql".toList
  | mariadb => "mariadb".toList
  | tidb => "tidb".toList
  | oceanbase => "oceanbase".toList
  | clickhouse => "clickhouse".toList
  | sqlite => "sqlite".toList
  | postgres => "postgres".toList
  | sqlserver => "sqlserver".toList
  | oracle => "oracle".toList
  | oracleLegacy => "oracle-legacy".toList

/-- The name used in stored data, which has no dash. -/
def tag : Dialect → Text
  | oracleLegacy => "oraclelegacy".toList
  | d => d.name

def ofTag? (t : Text) : Option Dialect := all.find? fun d => d.tag = t

/-- The names by which a dialect is known. -/
def spellings : Dialect → List Text
  | sqlite => [sqlite.name, "sqlite3".toList]
  | postgres => [postgres.name, "postgresql".toList, "pg".toList]
  | sqlserver => [sqlserver.name, "mssql".toList, "sql-server".toList]
  | oracleLegacy => [oracleLegacy.name, "oracle11".toList, "oracle11g".toList]
  | d => [d.name]

/-- The form in which spellings are compared. -/
def canonical (t : Text) : Text :=
  (Text.lower (Text.trim t)).map fun c => if c = '_' ∨ c = ' ' then '-' else c

def ofText? (t : Text) : Option Dialect := all.find? fun d => canonical t ∈ d.spellings

def placeholderStyle : Dialect → PlaceholderStyle
  | postgres => .dollar
  | sqlserver => .atP
  | oracle | oracleLegacy => .colon
  | _ => .question

def limitSyntax : Dialect → LimitSyntax
  | sqlserver | oracle => .offsetFetch
  | oracleLegacy => .rowNum
  | _ => .limitOffset

/-- The sort key that orders rows at random. -/
def randomKey : Dialect → Text
  | mysql | mariadb | tidb | oceanbase => "RAND()".toList
  | clickhouse => "rand()".toList
  | sqlite | postgres => "RANDOM()".toList
  | sqlserver => "NEWID()".toList
  | oracle | oracleLegacy => "DBMS_RANDOM.VALUE".toList

/-- A derived table is named with `AS`. -/
def namesWithAs : Dialect → Bool
  | oracle | oracleLegacy => false
  | _ => true

/-- What gives a derived table its name. -/
def derivedName (d : Dialect) (tableAlias : Text) : Text :=
  if d.namesWithAs then "AS ".toList ++ tableAlias else tableAlias

/-- A query in parentheses with a name of its own. -/
def derivedTable (d : Dialect) (query tableAlias : Text) : Text :=
  "(".toList ++ query ++ ") ".toList ++ d.derivedName tableAlias

/-- Rows can be skipped only after an `ORDER BY`. -/
def needsOrder : Dialect → Bool
  | sqlserver => true
  | _ => false

/-- A page may keep the `FOR UPDATE` of its statement. -/
def locksPages : Dialect → Bool
  | oracle | oracleLegacy => false
  | _ => true

theorem mem_all (d : Dialect) : d ∈ all := by cases d <;> decide

theorem ofTag?_tag (d : Dialect) : ofTag? d.tag = some d := by cases d <;> decide

theorem ofText?_of_mem_spellings (d : Dialect) : ∀ t ∈ d.spellings, ofText? t = some d := by
  cases d <;> decide

theorem name_mem_spellings (d : Dialect) : d.name ∈ d.spellings := by cases d <;> decide

end Dialect

end PagedQuery
