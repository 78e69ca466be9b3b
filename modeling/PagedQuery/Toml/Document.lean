import PagedQuery.Toml.Quoted
import PagedQuery.Toml.Scalar
import PagedQuery.Toml.Table

/-!
# TOML documents

A document is a row of lines: headers in brackets, and keys with values. Keys
are bare or quoted, with dots between them. Arrays and tables between braces may
go over several lines and end in a comma. Arrays and tables in a value nest at
most 80 deep, and at most 79 keys are on the way to a key. A document with any
error has no value.
-/
namespace PagedQuery.Toml

/-! ## Keys -/

def isBareKeyCharacter (c : Char) : Bool := c.isAlphanum || c = '_' || c = '-'

def key : Reader Text := fun t =>
  match shortString t with
  | some found => some found
  | none =>
    let bare := t.takeWhile isBareKeyCharacter
    if bare = [] then none else some (bare, t.drop bare.length)

/-- A dot, with spaces around it, tells that another key follows. -/
def dot : Reader Bool := fun t =>
  match skipSpaces t with
  | '.' :: rest => some (true, skipSpaces rest)
  | rest => some (false, rest)

/-- How deep arrays and tables may nest in a value, and how many keys a dotted key may have. -/
def maxLevels : Nat := 80

/-- Keys with dots between them: the way to a key, and the key. -/
def dottedKey : Reader (List Text × Text) := fun t =>
  match items key dot t with
  | some (keys, rest) =>
    if keys.length ≤ maxLevels then
      keys.getLast?.map fun last => ((keys.dropLast, last), rest)
    else none
  | none => none

/-! ## Values -/

/-- What stands between the parts of an array or of a table in braces, with
comments and line ends, up to what `closes` it; a comma may stand before that. -/
def partsGoOn (closes : Char) : Reader Bool := fun t =>
  match skipFiller false t with
  | some (c :: rest) =>
    if c = closes then some (false, rest)
    else if c = ',' then
      match skipFiller false rest with
      | some (c :: rest) => if c = closes then some (false, rest) else some (true, c :: rest)
      | _ => none
    else none
  | _ => none

/-- The rest of an array or of a table in braces after what opens it. -/
def partsRest {α : Type} (closes : Char) (part : Reader α) : Reader (List α) := fun t =>
  match skipFiller false t with
  | some (c :: rest) =>
    if c = closes then some ([], rest) else items part (partsGoOn closes) (c :: rest)
  | _ => none

/-- A key, an equals sign and a value, with what `skip` leaves out around the equals sign. -/
def assignment (skip : Text → Option Text) (value : Reader Value) : Reader Assignment := fun t =>
  match dottedKey t with
  | none => none
  | some ((way, key), rest) =>
    match skip rest with
    | some ('=' :: rest) =>
      match skip rest with
      | some rest => (value rest).map fun (value, rest) => (⟨way, key, value⟩, rest)
      | none => none
    | _ => none

/-- A value in which arrays and tables nest at most `levels` deep. -/
def value : Nat → Reader Value
  | levels, '[' :: t =>
    match levels with
    | 0 => none
    | levels + 1 => (partsRest ']' (value levels) t).map fun (items, rest) => (.array items, rest)
  | levels, '\x7b' :: t =>
    match levels with
    | 0 => none
    | levels + 1 =>
      match partsRest '\x7d' (assignment (skipFiller false) (value levels)) t with
      | none => none
      | some (assignments, rest) =>
        (Entries.assignAll assignments []).map fun entries => (.table .inline entries, rest)
  | _, '"' :: t => (string ('"' :: t)).map fun (content, rest) => (.text content, rest)
  | _, '\'' :: t => (string ('\'' :: t)).map fun (content, rest) => (.text content, rest)
  | _, t => scalar t

/-! ## Lines -/

inductive Line where
  | header (header : Header)
  | assignment (assignment : Assignment)
  deriving Repr

/-- A header after its opening bracket or brackets, up to what `closes` it. -/
def headerRest (opening : Opening) (closes : Text) : Reader Line := fun t =>
  match dottedKey (skipSpaces t) with
  | none => none
  | some ((way, key), rest) =>
    (after? closes (skipSpaces rest)).map fun rest => (.header ⟨way, key, opening⟩, rest)

def line : Reader Line
  | '[' :: '[' :: t => headerRest .nextOfList [']', ']'] t
  | '[' :: t => headerRest .table [']'] t
  | t => (assignment (some ∘ skipSpaces) (value maxLevels) t).map fun (a, rest) => (.assignment a, rest)

/-- The end of a line and the empty lines after it; another line follows unless the text ends. -/
def lineGoesOn : Reader Bool := fun t =>
  (nextLine? t).map fun rest => (!rest.isEmpty, rest)

def lines? (document : Text) : Option (List Line) :=
  let document := if document.head? = some '\uFEFF' then document.drop 1 else document
  match skipFiller false document with
  | none => none
  | some [] => some []
  | some rest => (items line lineGoesOn rest).map Prod.fst

/-! ## Tables -/

/-- The assignments in front of the first header. -/
def leading : List Line → List Assignment
  | .assignment a :: lines => a :: leading lines
  | _ => []

/-- The tables that the headers among the lines open, with the assignments under them. -/
def openAll : List Line → Entries → Option Entries
  | [], entries => some entries
  | .assignment _ :: lines, entries => openAll lines entries
  | .header h :: lines, entries => (entries.section? h (leading lines)).bind (openAll lines)

def parse? (document : Text) : Option Entries :=
  match lines? document with
  | none => none
  | some lines => (Entries.assignAll (leading lines) []).bind (openAll lines)

end PagedQuery.Toml
