import PagedQuery.Json.Value

/-!
# TOML values

A value is what a document gives a key. Of decimals and dates only their
written form is kept. A number may be written correctly and yet have no value,
because it is too large or spelled with digits that its base does not have;
that is no error until the number is asked for. A table remembers how it came
about, because that decides what may still be added to it; a list of tables that
grows by headers is kept apart from an array, with its last table first.
-/
namespace PagedQuery.Toml

/-- How a table came about. -/
inductive Origin where
  /-- it is written between braces -/
  | inline
  /-- it has a header, or is the document -/
  | header
  /-- it is on the way to a table with a header -/
  | implied
  /-- it is on the way of a dotted key -/
  | dotted
  deriving DecidableEq, Repr

inductive Value where
  | text (t : Text)
  | flag (b : Bool)
  | whole (n : Int)
  | decimal (written : Text)
  | date (written : Text)
  /-- a number without a value -/
  | unreadable (written : Text)
  | array (items : List Value)
  | table (origin : Origin) (entries : List (Text × Value))
  | tables (entries : List (Text × Value)) (earlier : List (List (Text × Value)))
  deriving Repr, Inhabited

/-- The values of a table by their keys. -/
abbrev Entries := Fields Value

namespace Value

mutual

/-- All numbers in the value have values. -/
def isReadable : Value → Bool
  | unreadable _ => false
  | array items => areReadable items
  | table _ entries => entriesReadable entries
  | tables last earlier => entriesReadable last && tablesReadable earlier
  | text _ | flag _ | whole _ | decimal _ | date _ => true

def areReadable : List Value → Bool
  | [] => true
  | item :: items => isReadable item && areReadable items

def entryReadable : Text × Value → Bool
  | (_, value) => isReadable value

def entriesReadable : List (Text × Value) → Bool
  | [] => true
  | entry :: entries => entryReadable entry && entriesReadable entries

def tablesReadable : List (List (Text × Value)) → Bool
  | [] => true
  | entries :: more => entriesReadable entries && tablesReadable more

end

end Value

end PagedQuery.Toml
