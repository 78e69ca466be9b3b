import PagedQuery.DatabaseError
import PagedQuery.Page
import PagedQuery.Plan

/-!
# Running plans

An executor runs statements with their values; what it answers may depend on a
state that its runs change. Fetching a page plans a request, runs the count
statement once and, unless the count is zero, the page statement once, both
with the same values. Nothing is run again after an error.
-/
namespace PagedQuery

inductive ExecutorError where
  | database (error : DatabaseError)
  | decode (message : Text)
  | other (message : Text)
  deriving DecidableEq, Repr

def ExecutorError.message : ExecutorError → Text
  | database error => "Database error: ".toList ++ error.message
  | decode message => "Decode error: ".toList ++ message
  | other message => message

/-- Runs statements; `σ` is its state and `ρ` the type of its rows. -/
structure Executor (σ ρ : Type) where
  count : Text → List Value → σ → Except ExecutorError UInt64 × σ
  query : Text → List Value → σ → Except ExecutorError (List ρ) × σ

/-- A statement that was run, with its values. -/
inductive Call where
  | count (statement : Text) (parameters : List Value)
  | query (statement : Text) (parameters : List Value)
  deriving Repr

/-- The executor that also keeps its calls, the last one at the end. -/
def Executor.recording {σ ρ : Type} (e : Executor σ ρ) : Executor (σ × List Call) ρ where
  count statement parameters := fun (state, calls) =>
    let (answer, state) := e.count statement parameters state
    (answer, state, calls ++ [.count statement parameters])
  query statement parameters := fun (state, calls) =>
    let (answer, state) := e.query statement parameters state
    (answer, state, calls ++ [.query statement parameters])

/-- An executor that gives the same answers to every call. -/
def Executor.constant {ρ : Type} (count : Except ExecutorError UInt64)
    (rows : Except ExecutorError (List ρ)) : Executor Unit ρ where
  count _ _ := fun state => (count, state)
  query _ _ := fun state => (rows, state)

/-- Why no page was fetched. -/
inductive FetchError where
  | plan (error : PlanError)
  | count (error : ExecutorError)
  | query (error : ExecutorError)
  deriving DecidableEq, Repr

def FetchError.message : FetchError → Text
  | plan error => error.message
  | count error => "failed to count rows: ".toList ++ error.message
  | query error => "failed to query page: ".toList ++ error.message

namespace Planner

variable {σ ρ : Type}

def fetchPlanned (plan : Plan) (e : Executor σ ρ) (state : σ) :
    Except FetchError (Page ρ) × σ :=
  match e.count plan.countStatement plan.parameters state with
  | (.error error, state) => (.error (.count error), state)
  | (.ok total, state) =>
    if total = 0 then (.ok (Page.empty plan.window), state)
    else
      match e.query plan.pageStatement plan.parameters state with
      | (.error error, state) => (.error (.query error), state)
      | (.ok rows, state) => (.ok (Page.of rows plan.window total), state)

def fetchPage (p : Planner) (e : Executor σ ρ) (r : Request) (state : σ) :
    Except FetchError (Page ρ) × σ :=
  match p.plan r with
  | .error error => (.error (.plan error), state)
  | .ok plan => fetchPlanned plan e state

/-- The pages of a list of requests, each fetched in the state that the last one left. -/
def fetchPages (p : Planner) (e : Executor σ ρ) :
    List Request → σ → List (Except FetchError (Page ρ)) × σ
  | [], state => ([], state)
  | r :: rs, state =>
    let (page, state) := p.fetchPage e r state
    let (pages, state) := fetchPages p e rs state
    (page :: pages, state)

end Planner

end PagedQuery
