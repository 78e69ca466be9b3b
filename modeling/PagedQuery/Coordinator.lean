import PagedQuery.Executor
import PagedQuery.Settings.Basic

/-!
# Coordinators

A coordinator plans pages as its settings say and hands out builders of the
same strictness and dialect. With a session it also fetches pages; an offline
coordinator has none and refuses to.
-/
namespace PagedQuery

/-- An open connection: it runs plans, and a ping tells whether it still works. -/
structure Session (σ ρ : Type) where
  executor : Executor σ ρ
  ping : σ → Except DatabaseError Unit × σ

inductive CoordinatorError where
  | settings (fault : SettingsFault)
  | connection (error : DatabaseError)
  | offline
  | fetch (error : FetchError)
  deriving DecidableEq, Repr

def CoordinatorError.message : CoordinatorError → Text
  | settings fault => "Configuration error: ".toList ++ fault.message
  | connection error => "Database connection error: ".toList ++ error.message
  | offline => "No statement executor configured: coordinator was created offline".toList
  | fetch error => error.message

structure Coordinator (σ ρ : Type) where
  planner : Planner
  strict : Bool
  session : Option (Session σ ρ)

namespace Coordinator

variable {σ ρ : Type}

/-- The coordinator without a session that paging settings describe. -/
def offline (s : PagingSettings) : Except CoordinatorError (Coordinator σ ρ) :=
  match s.planner with
  | .error fault => .error (.settings fault)
  | .ok planner => .ok { planner, strict := s.strictBuilders, session := none }

def predicate (c : Coordinator σ ρ) : Predicate := .empty c.strict

def sortKeys (c : Coordinator σ ρ) : SortKeys := { dialect := c.planner.dialect }

def plan (c : Coordinator σ ρ) (r : Request) : Except CoordinatorError Plan :=
  match c.planner.plan r with
  | .error error => .error (.fetch (.plan error))
  | .ok plan => .ok plan

def fetchPage (c : Coordinator σ ρ) (r : Request) (state : σ) :
    Except CoordinatorError (Page ρ) × σ :=
  match c.session with
  | none => (.error .offline, state)
  | some session =>
    match c.planner.fetchPage session.executor r state with
    | (.error error, state) => (.error (.fetch error), state)
    | (.ok page, state) => (.ok page, state)

/-- Whether the connection works. -/
def checkHealth (c : Coordinator σ ρ) (state : σ) : Except CoordinatorError Unit × σ :=
  match c.session with
  | none => (.error .offline, state)
  | some session =>
    match session.ping state with
    | (.error error, state) => (.error (.connection error), state)
    | (.ok (), state) => (.ok (), state)

end Coordinator

end PagedQuery
