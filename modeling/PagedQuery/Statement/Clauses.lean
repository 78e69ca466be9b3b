import PagedQuery.Lexical.Search

/-!
# Clauses of a statement

The clause keywords, each with the spaces that must surround it, and where the
clauses of a statement begin. Only `FOR UPDATE` may be followed by anything.
The body of a statement is its condition, or the text after `FROM` when it has
none; the tail begins at the first clause that may follow a condition.
-/
namespace PagedQuery

namespace Keyword

def fromClause : Text := " FROM ".toList
def whereClause : Text := " WHERE ".toList
def orderBy : Text := " ORDER BY ".toList
def groupBy : Text := " GROUP BY ".toList
def having : Text := " HAVING ".toList
def window : Text := " WINDOW ".toList
def limit : Text := " LIMIT ".toList
def offset : Text := " OFFSET ".toList
def fetch : Text := " FETCH ".toList
def forUpdate : Text := " FOR UPDATE".toList
def or : Text := " OR ".toList

/-- The clauses that cap the number of rows. -/
def rowLimits : List Text := [limit, offset, fetch]

/-- The clauses that must stay behind `ORDER BY`. -/
def limits : List Text := rowLimits ++ [forUpdate]

/-- The clauses that may follow the condition. -/
def trailing : List Text := [groupBy, having, window, orderBy] ++ limits

end Keyword

/-- Where the clauses of a statement begin. -/
structure Clauses where
  fromAt : Nat
  whereAt : Option Nat
  bodyAt : Nat
  tailAt : Nat
  deriving DecidableEq, Repr

namespace Clauses

/-- The clauses of a text that has a `FROM` at the top level. -/
def of? (t : Text) : Option Clauses :=
  match Text.topLevel? Keyword.fromClause 0 t with
  | none => none
  | some fromAt =>
    let whereAt := Text.topLevel? Keyword.whereClause fromAt t
    let bodyAt :=
      match whereAt with
      | none => fromAt + Keyword.fromClause.length
      | some i => i + Keyword.whereClause.length
    let tailAt := (Text.firstTopLevel? Keyword.trailing bodyAt t).getD t.length
    some ⟨fromAt, whereAt, bodyAt, tailAt⟩

end Clauses

end PagedQuery
