import PagedQuery.Plan
import PagedQuery.Text.Blank

/-!
# Settings

What is set for paging and, where statements are also run, for the database.
Settings are checked in a fixed order and the first fault is reported: the
database before the paging, and of the paging the dialect first. Checked
settings have a planner.
-/
namespace PagedQuery

structure DatabaseSettings where
  host : Text
  port : UInt16
  database : Text
  username : Text
  password : Text
  minConnections : UInt32
  maxConnections : UInt32
  connectionTimeoutSeconds : UInt64
  idleTimeoutSeconds : UInt64
  maxLifetimeSeconds : UInt64
  deriving DecidableEq, Repr

/-- The paging settings; a maximum page size of zero is no maximum. -/
structure PagingSettings where
  dialect : Text := Dialect.mysql.name
  defaultPageSize : UInt64 := 10
  maxPageSize : UInt64 := 0
  countAlias : Text := "pagehaus_count".toList
  strictBuilders : Bool := false
  deriving DecidableEq, Repr, Inhabited

structure Settings where
  database : Option DatabaseSettings := none
  paging : PagingSettings := {}
  deriving DecidableEq, Repr, Inhabited

/-- What can be wrong with settings that could be read. -/
inductive Fault where
  | emptyHost
  | zeroPort
  | emptyDatabase
  | emptyUsername
  | zeroMinConnections
  | zeroMaxConnections
  | minAboveMaxConnections
  | zeroConnectionTimeout
  | zeroDefaultPageSize
  | defaultAboveMaxPageSize
  | blankCountAlias
  | noPath
  | foreignDialect (dialect : Dialect)
  | noDatabase
  deriving DecidableEq, Repr

def pathVariable : Text := "PAGEHAUS_CONFIG".toList

def defaultPath : Text := "./pagehaus.toml".toList

def Fault.message : Fault → Text
  | emptyHost => "Database host cannot be empty".toList
  | zeroPort => "Database port cannot be zero".toList
  | emptyDatabase => "Database name cannot be empty".toList
  | emptyUsername => "Database username cannot be empty".toList
  | zeroMinConnections => "Database min_connections must be greater than 0".toList
  | zeroMaxConnections => "Database max_connections must be greater than 0".toList
  | minAboveMaxConnections =>
    "Database min_connections cannot be greater than max_connections".toList
  | zeroConnectionTimeout => "Database connection_timeout_seconds must be greater than 0".toList
  | zeroDefaultPageSize => "Pagination default_page_size must be greater than 0".toList
  | defaultAboveMaxPageSize =>
    "Pagination default_page_size cannot be greater than max_page_size".toList
  | blankCountAlias => "Pagination count_alias cannot be empty".toList
  | noPath =>
    "Config path must be specified in .env file as ".toList ++ pathVariable ++ " or in ".toList ++
      defaultPath ++ " file".toList
  | foreignDialect dialect =>
    "The bundled executor targets PostgreSQL, configured dialect is ".toList ++ dialect.name
  | noDatabase => "A [database] section is required to connect".toList

/-- The first fault of a list of conditions. -/
def Fault.first? (conditions : List (Bool × Fault)) : Option Fault :=
  (conditions.find? Prod.fst).map Prod.snd

theorem Fault.first?_eq_none_iff (conditions : List (Bool × Fault)) :
    first? conditions = none ↔ ∀ c ∈ conditions, c.1 = false := by
  simp [first?]

namespace DatabaseSettings

/-- The text that names the server, the database and who connects to it. -/
def connectionString (d : DatabaseSettings) : Text :=
  "postgresql://".toList ++ d.username ++ ':' :: d.password ++ '@' :: d.host ++
    ':' :: Text.ofNat d.port.toNat ++ '/' :: d.database

/-- What is wrong with the settings, if anything. -/
def fault? (d : DatabaseSettings) : Option Fault :=
  Fault.first?
    [(d.host = [], .emptyHost), (d.port = 0, .zeroPort), (d.database = [], .emptyDatabase),
      (d.username = [], .emptyUsername), (d.minConnections = 0, .zeroMinConnections),
      (d.maxConnections = 0, .zeroMaxConnections),
      (d.maxConnections < d.minConnections, .minAboveMaxConnections),
      (d.connectionTimeoutSeconds = 0, .zeroConnectionTimeout)]

/-- Settings without a fault name a host, a port, a database and a user, and their
numbers of connections are in order. -/
theorem fault?_eq_none_iff (d : DatabaseSettings) :
    d.fault? = none ↔
      d.host ≠ [] ∧ d.port ≠ 0 ∧ d.database ≠ [] ∧ d.username ≠ [] ∧ d.minConnections ≠ 0 ∧
        d.maxConnections ≠ 0 ∧ d.minConnections ≤ d.maxConnections ∧
        d.connectionTimeoutSeconds ≠ 0 := by
  simp [fault?, Fault.first?_eq_none_iff]

end DatabaseSettings

/-- Why settings cannot be used, apart from files that cannot be read. -/
inductive SettingsFault where
  | dialect (error : UnknownDialect)
  | invalid (fault : Fault)
  deriving DecidableEq, Repr

def SettingsFault.message : SettingsFault → Text
  | dialect error => "Dialect error: ".toList ++ error.message
  | invalid fault => "Invalid configuration: ".toList ++ fault.message

namespace PagingSettings

def fault? (p : PagingSettings) : Option Fault :=
  Fault.first?
    [(p.defaultPageSize = 0, .zeroDefaultPageSize),
      (0 < p.maxPageSize && p.maxPageSize < p.defaultPageSize, .defaultAboveMaxPageSize),
      (Text.isAllBlank p.countAlias, .blankCountAlias)]

theorem fault?_eq_none_iff (p : PagingSettings) :
    p.fault? = none ↔
      p.defaultPageSize ≠ 0 ∧ (p.maxPageSize ≠ 0 → p.defaultPageSize ≤ p.maxPageSize) ∧
        Text.isAllBlank p.countAlias = false := by
  simp [fault?, Fault.first?_eq_none_iff, UInt64.pos_iff_ne_zero]

def options (p : PagingSettings) : PageOptions :=
  { defaultPageSize := p.defaultPageSize
    maxPageSize := p.maxPageSize
    countAlias := p.countAlias }

/-- The planner of the settings, if nothing is wrong with them. -/
def planner (p : PagingSettings) : Except SettingsFault Planner :=
  match Dialect.ofText? p.dialect with
  | none => .error (.dialect ⟨p.dialect⟩)
  | some dialect =>
    match p.fault? with
    | some fault => .error (.invalid fault)
    | none => .ok { dialect, options := p.options }

end PagingSettings

def Settings.planner (s : Settings) : Except SettingsFault Planner :=
  match s.database.bind DatabaseSettings.fault? with
  | some fault => .error (.invalid fault)
  | none => s.paging.planner

end PagedQuery
