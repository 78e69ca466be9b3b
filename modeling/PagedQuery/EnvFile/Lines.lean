import PagedQuery.Text.Blank

/-!
# Logical lines of an environment file

A logical line is a line of the file, and the lines after it as long as a
quotation is open. A comment begins at a `#` directly after a single blank
that follows other text, and ends the logical line; a `#` after two blanks
stays in the line. A line whose first character that is not blank is `#` is
empty. The file must not end inside a quotation, after a backslash or after
such a single blank.
-/
namespace PagedQuery.EnvFile

/-- Text that cannot be read, and how much of it was read. -/
structure ParseError where
  line : Text
  index : Nat
  deriving DecidableEq, Repr

def ParseError.message (e : ParseError) : Text :=
  "Error parsing line: '".toList ++ e.line ++ "', error at line index: ".toList ++
    Text.ofNat e.index

/-- What the end of the text so far is part of. -/
inductive LineState where
  | plain | blank | escape | double | doubleEscape | single | singleEscape
  deriving DecidableEq, Repr, Inhabited

namespace LineState

/-- The state after a backslash or a quotation mark outside quotes, if it is one. -/
def opened? : Char → Option LineState
  | '\\' => some escape
  | '"' => some double
  | '\'' => some single
  | _ => none

/-- The state after one more character. -/
def step (s : LineState) (c : Char) : LineState :=
  match s with
  | plain =>
    if Text.isBlank c ∧ c ≠ '\n' ∧ c ≠ '\r' then blank else (opened? c).getD plain
  | blank => (opened? c).getD plain
  | escape => plain
  | double => if c = '\\' then doubleEscape else if c = '"' then plain else double
  | doubleEscape => double
  | single => if c = '\\' then singleEscape else if c = '\'' then plain else single
  | singleEscape => single

end LineState

/-- The text in front of a comment, if one begins, or else the state at the end. -/
def scan (s : LineState) : Text → Text ⊕ LineState
  | [] => .inr s
  | c :: t =>
    if s = .blank ∧ c = '#' then .inl []
    else
      match scan (s.step c) t with
      | .inl kept => .inl (c :: kept)
      | .inr final => .inr final

def physicalLines : Text → List Text
  | [] => []
  | c :: t =>
    if c = '\n' then [c] :: physicalLines t
    else
      match physicalLines t with
      | [] => [[c]]
      | line :: lines => (c :: line) :: lines

/-- The line without the line feed, or carriage return and line feed, at its end. -/
def dropLineEnd (line : Text) : Text :=
  match line.reverse with
  | '\n' :: '\r' :: rest => rest.reverse
  | '\n' :: rest => rest.reverse
  | _ => line

def isComment (line : Text) : Bool := (line.dropWhile Text.isBlank).head? = some '#'

/-- Logical lines of the given lines after the open text `begun`, which ends in state `s`. -/
def joinLines (begun : Text) (s : LineState) : List Text → List (Except ParseError Text)
  | [] => if s = .plain then [] else [.error ⟨begun, Text.utf8Size begun⟩]
  | line :: lines =>
    let whole := begun ++ line
    if isComment whole then .ok [] :: joinLines [] .plain lines
    else
      match scan s line with
      | .inl kept => .ok (begun ++ kept) :: joinLines [] .plain lines
      | .inr .plain => .ok (dropLineEnd whole) :: joinLines [] .plain lines
      | .inr final => joinLines whole final lines

/-- The logical lines of a file; a byte order mark at its beginning is no part of them. -/
def logicalLines (file : Text) : List (Except ParseError Text) :=
  let file := if file.head? = some '\uFEFF' then file.drop 1 else file
  joinLines [] .plain (physicalLines file)

end PagedQuery.EnvFile
