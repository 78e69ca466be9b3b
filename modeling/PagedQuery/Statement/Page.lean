import PagedQuery.Statement.Basic

/-!
# Page statements

The page statement cuts one window out of the rows of a statement. A statement
that limits its rows itself is paged as a derived table. Order keys are put in
when the statement has no order, and a neutral order when the dialect needs
one. The limit stands behind the order and in front of a `FOR UPDATE`, which
not every dialect can page.
-/
namespace PagedQuery.Statement

/-- The alias under which a limited statement is paged. -/
def pageAlias : Text := "pagehaus_page".toList

/-- An order that leaves the rows as they are. -/
def neutralOrder : Text := "(SELECT NULL)".toList

def unlimited (dialect : Dialect) (t : Text) : Text :=
  if Text.hasTopLevel Keyword.rowLimits 0 t then selectAll (dialect.derivedTable t pageAlias) else t

/-- The order that is put in, for a statement with or without one. -/
def addedOrder (dialect : Dialect) (hasOrder : Bool) (keys : List Text) : Text :=
  if hasOrder then []
  else if keys.isEmpty then
    if dialect.needsOrder then Keyword.orderBy ++ neutralOrder else []
  else Keyword.orderBy ++ SortKeys.commaSeparated keys

def word (n : UInt64) : Text := Text.ofNat n.toNat

/-- The ordered statement with its rows cut down to the window. -/
def limited (limit : LimitSyntax) (w : Window) (t locking : Text) : Text :=
  match limit with
  | .limitOffset =>
    t ++ " LIMIT ".toList ++ word w.pageSize ++ " OFFSET ".toList ++ word w.offset ++ locking
  | .offsetFetch =>
    t ++ " OFFSET ".toList ++ word w.offset ++ " ROWS FETCH NEXT ".toList ++ word w.pageSize ++
      " ROWS ONLY".toList ++ locking
  | .rowNum =>
    "SELECT * FROM (SELECT row_.*, ROWNUM rownum_ FROM (".toList ++ t ++
      ") row_ WHERE ROWNUM <= ".toList ++ word w.last ++ ") WHERE rownum_ > ".toList ++ word w.offset

def page (dialect : Dialect) (keys : List Text) (w : Window) (t : Text) : Except PlanError Text :=
  let t := unlimited dialect t
  let hasOrder := (Text.topLevel? Keyword.orderBy 0 t).isSome
  let lockAt := (Text.topLevel? Keyword.forUpdate 0 t).getD t.length
  let locking := t.drop lockAt
  if ¬locking.isEmpty ∧ ¬dialect.locksPages then .error (.unsupportedLocking dialect t)
  else
    .ok (limited dialect.limitSyntax w
      (Text.trimEnd (t.take lockAt) ++ addedOrder dialect hasOrder keys) locking)

end PagedQuery.Statement
