import PagedQuery.EnvFile.Lines
import PagedQuery.Text.Alphanumeric

/-!
# Assignments of an environment file

A logical line is empty, a comment, or a key, `=` and a value, after an
optional `export`. A value is text in which quotes are taken off, backslashes
escape and `$NAME` or `${NAME}` stands for the value of a variable; single
quotes keep everything, double quotes keep everything but escapes and
variables. Blanks end the value and may be followed only by a comment.
-/
namespace PagedQuery.EnvFile

abbrev Lookup := Text → Text

/-- What the next character of a value is part of. -/
inductive ValueState where
  /-- the value itself -/
  | text
  /-- a single-quoted stretch -/
  | single
  /-- an escape -/
  | escape
  /-- the blanks after the value -/
  | ending
  /-- the name of a variable after `$` -/
  | name (name : Text)
  /-- the name of a variable in braces -/
  | braced (name : Text)
  deriving DecidableEq, Repr, Inhabited

inductive ValueError where
  | at (index : Nat)
  | unclosed
  deriving DecidableEq, Repr

/-- The character that an escape stands for. -/
def unescape? (c : Char) : Option Char :=
  if c = 'n' then some '\n'
  else if ['\\', '\'', '"', '$', ' '].contains c then some c
  else none

/-- The value of the text from the given index on. The name of a variable ends
at the first character that is neither letter nor number, and that character is
then part of the value, a quotation mark too. -/
def readValue (lookup : Lookup) (quoted : Bool) (s : ValueState) (index : Nat) :
    Text → Except ValueError Text
  | [] =>
    match s with
    | .single | .braced _ => .error .unclosed
    | .name name => if quoted then .error .unclosed else .ok (lookup name)
    | _ => if quoted then .error .unclosed else .ok []
  | c :: t =>
    match s with
    | .ending =>
      if c = ' ' ∨ c = '\t' then readValue lookup quoted .ending (index + 1) t
      else if c = '#' then .ok []
      else .error (.at index)
    | .escape =>
      match unescape? c with
      | none => .error (.at index)
      | some plain => (readValue lookup quoted .text (index + 1) t).map (plain :: ·)
    | .single =>
      if c = '\'' then readValue lookup quoted .text (index + 1) t
      else (readValue lookup quoted .single (index + 1) t).map (c :: ·)
    | .name name =>
      if Text.isAlphanumeric c then readValue lookup quoted (.name (name ++ [c])) (index + 1) t
      else if c = '\x7b' ∧ name = [] then readValue lookup quoted (.braced []) (index + 1) t
      else if c = '$' then
        (readValue lookup quoted (.name []) (index + 1) t).map (lookup name ++ ·)
      else (readValue lookup quoted .text (index + 1) t).map (lookup name ++ c :: ·)
    | .braced name =>
      if c = '\x7d' then (readValue lookup quoted .text (index + 1) t).map (lookup name ++ ·)
      else readValue lookup quoted (.braced (name ++ [c])) (index + 1) t
    | .text =>
      if c = '$' then readValue lookup quoted (.name []) (index + 1) t
      else if c = '"' then readValue lookup (!quoted) .text (index + 1) t
      else if c = '\\' then readValue lookup quoted .escape (index + 1) t
      else if quoted then (readValue lookup quoted .text (index + 1) t).map (c :: ·)
      else if c = '\'' then readValue lookup quoted .single (index + 1) t
      else if c = ' ' ∨ c = '\t' then readValue lookup quoted .ending (index + 1) t
      else (readValue lookup quoted .text (index + 1) t).map (c :: ·)

/-- The value that a text spells; an error at its end is reported at its last byte. -/
def value (lookup : Lookup) (t : Text) : Except ParseError Text :=
  match readValue lookup false .text 0 t with
  | .ok value => .ok value
  | .error (.at index) => .error ⟨t, index⟩
  | .error .unclosed => .error ⟨t, Text.utf8Size t - 1⟩

/-- The rest of a line and the number of its bytes that were read. -/
structure Cursor where
  rest : Text
  read : Nat
  deriving DecidableEq, Repr

namespace Cursor

def skipWhile (keep : Char → Bool) (c : Cursor) : Cursor :=
  { rest := c.rest.dropWhile keep, read := c.read + Text.utf8Size (c.rest.takeWhile keep) }

def skipBlanks (c : Cursor) : Cursor := c.skipWhile Text.isBlank

def equals? (c : Cursor) : Option Cursor :=
  match c.rest with
  | '=' :: rest => some ⟨rest, c.read + 1⟩
  | _ => none

def isKeyStart (c : Char) : Bool := c.isAlpha || c = '_'

def isKeyCharacter (c : Char) : Bool := c.isAlphanum || c = '_' || c = '.'

def key? (c : Cursor) : Option (Text × Cursor) :=
  if c.rest.head?.any isKeyStart then
    some (c.rest.takeWhile isKeyCharacter, c.skipWhile isKeyCharacter)
  else none

/-- Reads a key and the equals sign after it, or says how far it came. -/
def assignment (c : Cursor) : Except Nat (Text × Cursor) :=
  match c.key? with
  | none => .error c.read
  | some (key, c) =>
    match c.skipBlanks.equals? with
    | none => .error c.skipBlanks.read
    | some c => .ok (key, c)

end Cursor

def exportWord : Text := "export".toList

/-- Reads the key of a line and the equals sign after it. A key `export` that no
equals sign follows stands in front of another key. -/
def lineKey (c : Cursor) : Except Nat (Text × Cursor) :=
  match c.key? with
  | some (key, after) =>
    if key = exportWord ∧ after.skipBlanks.equals?.isNone then after.skipBlanks.assignment
    else c.assignment
  | none => c.assignment

/-- What a logical line assigns; the value is absent when nothing is written for it. -/
def assignment? (lookup : Lookup) (line : Text) : Except ParseError (Option (Text × Option Text)) :=
  let start := (Cursor.mk (Text.trimEnd line) 0).skipBlanks
  if start.rest.isEmpty ∨ start.rest.head? = some '#' then .ok none
  else
    match lineKey start with
    | .error index => .error ⟨line, index⟩
    | .ok (key, c) =>
      let written := c.skipBlanks.rest
      if written.isEmpty ∨ written.head? = some '#' then .ok (some (key, none))
      else (value lookup written).map fun v => some (key, some v)

end PagedQuery.EnvFile
