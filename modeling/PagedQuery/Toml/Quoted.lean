import PagedQuery.Toml.Reading

/-!
# Quoted TOML strings

A string stands between quotation marks, with escapes, or between apostrophes,
without any. Three marks open a string of several lines: a line end directly
after them is left out, and before the three marks that close it up to two more
belong to the string. In a string with escapes a backslash at the end of a line
leaves out all spaces and line ends up to the next other character.
-/
namespace PagedQuery.Toml

/-- The character with a code point written in hexadecimal. Surrogates are no characters. -/
def scalar? (digits : Text) : Option Char :=
  match Text.valueIn? 16 digits with
  | none => none
  | some n => if n.isValidChar then some (Char.ofNat n) else none

/-- The character that a letter stands for after a backslash. -/
def escape? (c : Char) : Option Char :=
  if c = 'b' then some '\x08'
  else if c = 't' then some '\t'
  else if c = 'n' then some '\n'
  else if c = 'f' then some '\x0c'
  else if c = 'r' then some '\r'
  else if c = 'e' then some '\x1b'
  else if c = '"' then some '"'
  else if c = '\\' then some '\\'
  else none

def precede (c : Char) (read : Option (Text × Text)) : Option (Text × Text) :=
  read.map fun (content, rest) => (c :: content, rest)

def basicRest : Text → Option (Text × Text)
  | [] => none
  | '\\' :: 'x' :: a :: b :: t => (scalar? [a, b]).bind fun x => precede x (basicRest t)
  | '\\' :: 'u' :: a :: b :: c :: d :: t =>
    (scalar? [a, b, c, d]).bind fun x => precede x (basicRest t)
  | '\\' :: 'U' :: a :: b :: c :: d :: e :: f :: g :: h :: t =>
    (scalar? [a, b, c, d, e, f, g, h]).bind fun x => precede x (basicRest t)
  | '\\' :: c :: t => (escape? c).bind fun x => precede x (basicRest t)
  | c :: t =>
    if c = '"' then some ([], t)
    else if isControl c then none
    else precede c (basicRest t)

def literalRest : Text → Option (Text × Text)
  | [] => none
  | c :: t =>
    if c = '\'' then some ([], t)
    else if isControl c then none
    else precede c (literalRest t)

/-- Up to two marks in front of the text after a closing row of marks. -/
def closing (mark : Char) (t : Text) : Text × Text :=
  let extra := (t.takeWhile (· = mark)).take 2
  (extra, t.drop extra.length)

/-- A backslash, spaces and a line end are at the beginning of the text after the backslash. -/
def endsLine (t : Text) : Bool :=
  match skipSpaces t with
  | '\n' :: _ | '\r' :: '\n' :: _ => true
  | _ => false

/-- The rest of a string of several lines with escapes. After a backslash at the
end of a line it is `folding`, until the next character that is neither a space
nor a line end. -/
def longBasicRest (folding : Bool) : Text → Option (Text × Text)
  | [] => none
  | '"' :: '"' :: '"' :: t => some (closing '"' t)
  | '\r' :: '\n' :: t =>
    if folding then longBasicRest true t
    else precede '\r' (precede '\n' (longBasicRest false t))
  | '\\' :: 'x' :: a :: b :: t => (scalar? [a, b]).bind fun x => precede x (longBasicRest false t)
  | '\\' :: 'u' :: a :: b :: c :: d :: t =>
    (scalar? [a, b, c, d]).bind fun x => precede x (longBasicRest false t)
  | '\\' :: 'U' :: a :: b :: c :: d :: e :: f :: g :: h :: t =>
    (scalar? [a, b, c, d, e, f, g, h]).bind fun x => precede x (longBasicRest false t)
  | '\\' :: c :: t =>
    if endsLine (c :: t) then longBasicRest true (c :: t)
    else (escape? c).bind fun x => precede x (longBasicRest false t)
  | c :: t =>
    if folding ∧ (isSpace c ∨ c = '\n') then longBasicRest true t
    else if isControl c ∧ c ≠ '\n' then none
    else precede c (longBasicRest false t)

/-- The rest of a string of several lines without escapes. -/
def longLiteralRest : Text → Option (Text × Text)
  | [] => none
  | '\'' :: '\'' :: '\'' :: t => some (closing '\'' t)
  | '\r' :: '\n' :: t => precede '\r' (precede '\n' (longLiteralRest t))
  | c :: t => if isControl c ∧ c ≠ '\n' then none else precede c (longLiteralRest t)

def dropLineEnd : Text → Text
  | '\n' :: t => t
  | '\r' :: '\n' :: t => t
  | t => t

def shortString : Reader Text
  | '"' :: t => basicRest t
  | '\'' :: t => literalRest t
  | _ => none

def string : Reader Text
  | '"' :: '"' :: '"' :: t => longBasicRest false (dropLineEnd t)
  | '\'' :: '\'' :: '\'' :: t => longLiteralRest (dropLineEnd t)
  | t => shortString t

end PagedQuery.Toml
