import PagedQuery.Lexical.Search

/-!
# Clause profiles

A profile tells which clauses a text mentions. It is a guess from the words of
the text: keywords count wherever they stand, in quotes and comments too, as
long as white space surrounds them. A text is complete when it begins with
`SELECT` or `WITH` and mentions `FROM`; it is complex when replacing its select
list by a row count could change the number of rows.
-/
namespace PagedQuery

structure Profile where
  hasSelect : Bool
  hasFrom : Bool
  hasWhere : Bool
  hasOrderBy : Bool
  hasGroupBy : Bool
  hasHaving : Bool
  hasDistinct : Bool
  hasJoin : Bool
  hasSetOperation : Bool
  hasSubquery : Bool
  hasCte : Bool
  deriving DecidableEq, Repr, Inhabited

namespace Profile

def joinWords : List Text :=
  [" JOIN ".toList, " STRAIGHT_JOIN ".toList, " CROSS APPLY ".toList, " OUTER APPLY ".toList]

def setOperations : List Text :=
  [" UNION ".toList, " INTERSECT ".toList, " EXCEPT ".toList, " MINUS ".toList]

def subqueryOpenings : List Text := ["(SELECT ".toList, "( SELECT ".toList]

def mentionsAny (tokens : List Text) (t : Text) : Bool := tokens.any fun token => Text.mentions token t

def of (t : Text) : Profile :=
  let hasCte := Text.startsWith "WITH ".toList t
  { hasSelect := Text.startsWith "SELECT ".toList t || hasCte
    hasFrom := Text.mentions " FROM ".toList t
    hasWhere := Text.mentions " WHERE ".toList t
    hasOrderBy := Text.mentions " ORDER BY ".toList t
    hasGroupBy := Text.mentions " GROUP BY ".toList t
    hasHaving := Text.mentions " HAVING ".toList t
    hasDistinct := Text.mentions " DISTINCT ".toList t
    hasJoin := mentionsAny joinWords t
    hasSetOperation := mentionsAny setOperations t
    hasSubquery := mentionsAny subqueryOpenings t
    hasCte }

/-- Counting rows by replacing the select list would be wrong or unsafe. -/
def isComplex (p : Profile) : Bool :=
  p.hasGroupBy || p.hasHaving || p.hasDistinct || p.hasJoin || p.hasSetOperation ||
    p.hasSubquery || p.hasCte

def isComplete (p : Profile) : Bool := p.hasSelect && p.hasFrom

theorem mentions_congr {s t : Text} (h : Text.fold s = Text.fold t) (token : Text) :
    Text.mentions token s = Text.mentions token t := by
  unfold Text.mentions; rw [h]

theorem startsWith_congr {s t : Text} (h : Text.fold s = Text.fold t) (token : Text) :
    Text.startsWith token s = Text.startsWith token t := by
  unfold Text.startsWith; rw [h]

theorem of_eq_of_fold_eq {s t : Text} (h : Text.fold s = Text.fold t) : of s = of t := by
  simp only [of, mentionsAny, mentions_congr h, startsWith_congr h]

end Profile

end PagedQuery
