import PagedQuery.Text.Basic

/-!
# Reading TOML text

A reader takes something off the beginning of a text and gives it with the
text after it, or fails. Spaces and tabs separate parts of a line; comments
and line ends also separate lines. A control character other than a tab is an
error in a comment, and a carriage return counts only before a line feed.
-/
namespace PagedQuery.Toml

/-- Takes a value off the beginning of a text, or fails. -/
abbrev Reader (α : Type) := Text → Option (α × Text)

/-- Control characters may stand neither in comments nor in strings; a tab may. -/
def isControl (c : Char) : Bool := (c.toNat < 0x20 && c ≠ '\t') || c.toNat = 0x7F

def isSpace (c : Char) : Bool := c = ' ' || c = '\t'

def skipSpaces (t : Text) : Text := t.dropWhile isSpace

/-- The text after a word at its beginning. -/
def after? (word t : Text) : Option Text :=
  if word.isPrefixOf t then some (t.drop word.length) else none

/-- The text after spaces, comments and line ends; `inComment` tells that a comment is open. -/
def skipFiller (inComment : Bool) : Text → Option Text
  | [] => some []
  | '\r' :: '\n' :: t => skipFiller false t
  | c :: t =>
    if c = '\n' then skipFiller false t
    else if inComment then if isControl c then none else skipFiller true t
    else if isSpace c then skipFiller false t
    else if c = '#' then skipFiller true t
    else some (c :: t)

/-- The text of the next line that is not empty, if the rest of this line is. -/
def nextLine? (t : Text) : Option Text :=
  match skipSpaces t with
  | [] => some []
  | '\r' :: '\n' :: rest => skipFiller false rest
  | c :: rest =>
    if c = '\n' then skipFiller false rest
    else if c = '#' then skipFiller true rest
    else none

/-- One item after another, as long as `goesOn` says so after an item. An item
that takes nothing off the text ends the reading with a failure. -/
def items {α : Type} (item : Reader α) (goesOn : Reader Bool) (t : Text) :
    Option (List α × Text) :=
  match item t with
  | none => none
  | some (first, rest) =>
    match goesOn rest with
    | none => none
    | some (false, rest) => some ([first], rest)
    | some (true, rest) =>
      if rest.length < t.length then
        (items item goesOn rest).map fun (others, rest) => (first :: others, rest)
      else none
termination_by t.length

end PagedQuery.Toml
