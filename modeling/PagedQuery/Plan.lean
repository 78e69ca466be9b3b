import PagedQuery.Statement.Count
import PagedQuery.Statement.Page

/-!
# Plans

A planner turns a request into a count statement and a page statement in the
placeholder style of its dialect, with one list of values for both. Of several
faults of a request the filter is reported first, then the source, then the
locking clause.
-/
namespace PagedQuery

/-- What the pages of all requests have in common. A maximum of zero is no maximum. -/
structure PageOptions where
  defaultPageSize : UInt64 := 10
  maxPageSize : UInt64 := 0
  countAlias : Text := "pagehaus_count".toList
  deriving DecidableEq, Repr, Inhabited

structure Planner where
  dialect : Dialect
  options : PageOptions := {}
  deriving DecidableEq, Repr

structure Plan where
  countStatement : Text
  pageStatement : Text
  parameters : List Value
  window : Window
  dialect : Dialect
  deriving Repr

namespace Planner

def window (p : Planner) (r : Request) : Window :=
  .of r.page r.pageSize p.options.defaultPageSize p.options.maxPageSize

/-- The statement of a request, filtered but neither counted nor paged. -/
def statement (p : Planner) (r : Request) : Except PlanError Statement :=
  match r.filter.render with
  | .error e => .error (.filter e)
  | .ok fragment => Statement.ofRequest p.dialect r (.of r.source) fragment

/-- The count statement before its placeholders are numbered. -/
def countText (p : Planner) (r : Request) (s : Statement) : Text :=
  Statement.count p.dialect p.options.countAlias (.of r.source) s.text

/-- The page statement before its placeholders are numbered. -/
def pageText (p : Planner) (r : Request) (s : Statement) : Except PlanError Text :=
  Statement.page p.dialect r.orderFragments (p.window r) s.text

def plan (p : Planner) (r : Request) : Except PlanError Plan :=
  match p.statement r with
  | .error e => .error e
  | .ok s =>
    match p.pageText r s with
    | .error e => .error e
    | .ok pageText =>
      let style := p.dialect.placeholderStyle
      .ok
        { countStatement := Placeholder.restyle style (p.countText r s)
          pageStatement := Placeholder.restyle style pageText
          parameters := s.parameters
          window := p.window r
          dialect := p.dialect }

end Planner

end PagedQuery
