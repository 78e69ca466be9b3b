import PagedQuery.Statement.Basic

/-!
# Count statements

The count statement counts the rows of a statement. An order without
placeholders is left out when no row limit depends on it. A simple statement
then counts by its own `FROM`; a complex or limited one, or one whose order
stays, is counted as a derived table. Nothing that holds a placeholder is left
out, so that count and page share one list of values.
-/
namespace PagedQuery.Statement

/-- The statement without its `ORDER BY`, if that can be left out. -/
def withoutOrder? (t : Text) : Option Text :=
  match Text.topLevel? Keyword.orderBy 0 t with
  | none => some t
  | some orderAt =>
    let keysAt := orderAt + Keyword.orderBy.length
    let endAt := (Text.firstTopLevel? Keyword.limits keysAt t).getD t.length
    if 0 < Placeholder.count ((t.take endAt).drop orderAt) then none
    else if Text.hasTopLevel Keyword.rowLimits keysAt t then none
    else some (t.take orderAt ++ t.drop endAt)

/-- The statement with a row count for its select list, if the number of rows
cannot change by that and no placeholder is lost. -/
def countDirectly? (t : Text) : Option Text :=
  match Text.topLevel? Keyword.fromClause 0 t with
  | none => none
  | some fromAt =>
    if 0 < Placeholder.count (t.take fromAt) ∨
        Profile.mentionsAny Profile.subqueryOpenings (t.drop fromAt) ∨
        Text.hasTopLevel Keyword.limits fromAt t then none
    else some ("SELECT COUNT(*)".toList ++ t.drop fromAt)

/-- A count of the rows of a derived table. -/
def countWrapped (dialect : Dialect) (tableAlias t : Text) : Text :=
  "SELECT COUNT(*) FROM ".toList ++ dialect.derivedTable t tableAlias

def count (dialect : Dialect) (tableAlias : Text) (profile : Profile) (t : Text) : Text :=
  match withoutOrder? t with
  | none => countWrapped dialect tableAlias t
  | some stripped =>
    if profile.isComplex then countWrapped dialect tableAlias stripped
    else (countDirectly? stripped).getD (countWrapped dialect tableAlias stripped)

end PagedQuery.Statement
