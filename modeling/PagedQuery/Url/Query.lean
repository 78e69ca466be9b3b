import PagedQuery.Url.Percent

/-!
# Queries of URLs

A query is a row of parameters with `&` between them, each a name and a value
with `=` between them. A plus sign stands for a space, and bytes that are no
text for replacement characters. Empty parameters count for nothing.
-/
namespace PagedQuery.Url

/-- The text that a name or a value in a query stands for. -/
def queryText (t : Text) : Text :=
  Text.ofUtf8Lossy (bytes (t.map fun c => if c = '+' then ' ' else c))

def parameters (query : Text) : List (Text × Text) :=
  ((Text.parts '&' query).filter (· ≠ [])).map fun parameter =>
    (queryText (parameter.takeWhile (· ≠ '=')), queryText (parameter.dropWhile (· ≠ '=')).tail)

end PagedQuery.Url
