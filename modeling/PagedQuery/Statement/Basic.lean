import PagedQuery.Request
import PagedQuery.Statement.Clauses
import PagedQuery.Statement.Profile
import PagedQuery.Text.Alphanumeric

/-!
# Statements

A source is read as a whole statement, as the rest of one from its `FROM`, as
the name of a table or as a condition on a table, in this order; blanks around
it and semicolons at its end do not count. A filter is conjoined with the
condition of the statement, in front of the clauses that follow a condition.
The values of the filter go between the values of the placeholders before and
behind it. A set operation is filtered from outside, as a derived table.
-/
namespace PagedQuery

inductive PlanError where
  | missingTable (source : Text)
  | missingFrom (statement : Text)
  | filter (error : FilterError)
  | unsupportedLocking (dialect : Dialect) (statement : Text)
  deriving DecidableEq, Repr

def PlanError.message : PlanError → Text
  | missingTable source => "Missing table name for bare predicate: ".toList ++ source
  | missingFrom statement => "No FROM clause found in statement: ".toList ++ statement
  | filter error => "Invalid filter: ".toList ++ error.message
  | unsupportedLocking dialect statement =>
    "Locking clause cannot be paged on ".toList ++ dialect.name ++ ": ".toList ++ statement

structure Statement where
  text : Text
  parameters : List Value
  deriving Repr, Inhabited

namespace Statement

/-- The source without blanks around it and semicolons at its end. -/
def bareSource (source : Text) : Text :=
  Text.trimEnd (Text.trimEndBy (· = ';') (Text.trim source))

/-- Every row of a table. -/
def selectAll (table : Text) : Text := "SELECT * FROM ".toList ++ table

/-- The characters of table names, quoted and qualified ones included. -/
def isTableCharacter (c : Char) : Bool :=
  Text.isAlphanumeric c || ['_', '.', '"', '`', '[', ']', '$'].contains c

def isTableName (t : Text) : Bool := !t.isEmpty && t.all isTableCharacter

/-- The table of a request, which a source without a `FROM` needs. -/
def requiredTable (r : Request) (source : Text) : Except PlanError Text :=
  match r.table.map Text.trim with
  | none | some [] => .error (.missingTable source)
  | some table => .ok table

/-- The whole statement that the source of a request stands for. -/
def base (r : Request) (profile : Profile) : Except PlanError Text :=
  let source := bareSource r.source
  if profile.hasSelect then
    if profile.hasFrom then .ok source else .error (.missingFrom source)
  else if Text.startsWith "FROM ".toList source then .ok ("SELECT * ".toList ++ source)
  else if source.isEmpty then (requiredTable r "<empty source>".toList).map selectAll
  else if isTableName source then .ok (selectAll source)
  else (requiredTable r source).map fun table => selectAll table ++ Keyword.whereClause ++ source

/-- The condition that holds of every row. -/
def neutralWhere : Text := " WHERE 1=1".toList

/-- The alias under which a set operation is filtered. -/
def sourceAlias : Text := "pagehaus_source".toList

/-- The text up to the tail, with a condition to which a term can be conjoined:
a condition with `OR` at the top level is put in parentheses. -/
def head (t : Text) (clauses : Clauses) : Text :=
  match clauses.whereAt with
  | none => Text.trimEnd (t.take clauses.tailAt) ++ neutralWhere
  | some whereAt =>
    let body := Text.trim ((t.take clauses.tailAt).drop clauses.bodyAt)
    if (Text.topLevel? Keyword.or 0 body).isSome then
      t.take whereAt ++ Keyword.whereClause ++ Predicate.parenthesized body
    else Text.trimEnd (t.take clauses.tailAt)

/-- The statement with a neutral condition when only a tail follows its `FROM`. -/
def withCondition (t : Text) (clauses : Clauses) : Text :=
  if clauses.whereAt.isNone ∧ clauses.tailAt < t.length then
    Text.trimEnd (t.take clauses.tailAt) ++ neutralWhere ++ t.drop clauses.tailAt
  else t

def splice (values : List Value) (position : Nat) (more : List Value) : List Value :=
  values.take position ++ more ++ values.drop position

/-- The set operation restricted by a fragment. -/
def restrictSetOperation (dialect : Dialect) (t : Text) (parameters : List Value)
    (fragment : Fragment) : Statement :=
  if fragment.text.isEmpty then ⟨t, parameters⟩
  else
    ⟨selectAll (dialect.derivedTable t sourceAlias) ++ Keyword.whereClause ++ fragment.text,
      parameters ++ fragment.values⟩

def restrict (t : Text) (clauses : Clauses) (parameters : List Value) (fragment : Fragment) :
    Statement :=
  if fragment.text.isEmpty then ⟨withCondition t clauses, parameters⟩
  else
    let head := head t clauses
    let position := min (Placeholder.count head) parameters.length
    ⟨head ++ " AND ".toList ++ Predicate.parenthesized fragment.text ++ t.drop clauses.tailAt,
      splice parameters position fragment.values⟩

/-- The statement of a request, restricted by the rendered filter. -/
def ofRequest (dialect : Dialect) (r : Request) (profile : Profile) (fragment : Fragment) :
    Except PlanError Statement :=
  match base r profile with
  | .error e => .error e
  | .ok t =>
    if profile.hasSetOperation then .ok (restrictSetOperation dialect t r.parameters fragment)
    else
      match Clauses.of? t with
      | none => .error (.missingFrom t)
      | some clauses => .ok (restrict t clauses r.parameters fragment)

end Statement

end PagedQuery
