import PagedQuery.Build.Filter
import PagedQuery.Build.SortKeys
import PagedQuery.Window

/-!
# Requests

A request names the rows to page through: a table, a condition on a table or a
whole statement, with the values of the placeholders in it, a filter, an order
and a page. Order entries may begin with `ORDER BY` and may be blank; what is
left of them are the order keys.
-/
namespace PagedQuery

structure Request where
  source : Text
  table : Option Text := none
  parameters : List Value := []
  filter : Filter := .none
  order : List Text := []
  page : Int64 := 1
  pageSize : Int64 := 0
  deriving Repr, Inhabited

namespace Request

def orderByPrefix : Text := "ORDER BY ".toList

/-- The text without an `ORDER BY` and one space at its beginning. -/
def dropOrderBy (t : Text) : Text :=
  if Text.upper (t.take orderByPrefix.length) = orderByPrefix then t.drop orderByPrefix.length
  else t

def orderKeys (entry : Text) : Text := Text.trim (dropOrderBy (Text.trim entry))

/-- The order entries that are left, without `ORDER BY`. -/
def orderFragments (r : Request) : List Text := (r.order.map orderKeys).filter (· ≠ [])

def orderBy (r : Request) (entry : Text) : Request := { r with order := r.order ++ [entry] }

/-- The sort keys as one more order entry, unless there are none. -/
def sortBy (r : Request) (keys : SortKeys) : Request :=
  if keys.isEmpty then r else r.orderBy keys.text

end Request

end PagedQuery
