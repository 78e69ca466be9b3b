import PagedQuery.Json.Compact

/-!
# Literals

A value that stands in the statement itself, and is not bound, is written as an
SQL literal: numbers bare, truth values and null as keywords, text between
single quotes with every single quote doubled. An array or object is the
literal of its compact JSON text.
-/
namespace PagedQuery.Literal

/-- Every single quote twice. -/
def doubleQuotes : Text → Text
  | [] => []
  | c :: t => if c = '\'' then '\'' :: '\'' :: doubleQuotes t else c :: doubleQuotes t

def quote (t : Text) : Text := '\'' :: doubleQuotes t ++ ['\'']

def render : Value → Text
  | .text t => quote t
  | .number n => n.text
  | .bool true => "TRUE".toList
  | .bool false => "FALSE".toList
  | .null => "NULL".toList
  | value => quote value.compact

end PagedQuery.Literal
