import PagedQuery.Toml.Value

/-!
# Growing TOML tables

A dotted key makes the tables on its way and may come back to them with other
keys; it never adds to a table that has a header or braces, but it may go on
through a table that is only on the way of a header, and through the last table
of a list, to tables of its own. A header finds or
makes the tables on its way, and of a list of tables it means the last one. It
opens a table that is new or was only on the way of an earlier header, or it
adds one more table to a list of tables. No key gets a second value.
-/
namespace PagedQuery.Toml

/-- A key with the tables in front of it, and its value. -/
structure Assignment where
  way : List Text
  key : Text
  value : Value
  deriving Repr

/-- What a header opens. -/
inductive Opening where
  | table
  | nextOfList
  deriving DecidableEq, Repr

/-- A header: the tables on its way, the key, and what it opens. -/
structure Header where
  way : List Text
  key : Text
  opening : Opening
  deriving DecidableEq, Repr

namespace Entries

def add (key : Text) (value : Value) (entries : Entries) : Option Entries :=
  match Fields.get? key entries with
  | some _ => none
  | none => some (Fields.insert key value entries)

/-- The value of a dotted key, put into the table at the end of its way. -/
def assign (key : Text) (value : Value) : List Text → Entries → Option Entries
  | [], entries => add key value entries
  | step :: way, entries =>
    match Fields.get? step entries with
    | none => (assign key value way []).map fun t => Fields.insert step (.table .dotted t) entries
    | some (.table .dotted t) =>
      (assign key value way t).map fun t => Fields.insert step (.table .dotted t) entries
    | some (.table .implied t) =>
      if way = [] then none
      else (assign key value way t).map fun t => Fields.insert step (.table .implied t) entries
    | some (.tables last earlier) =>
      if way = [] then none
      else (assign key value way last).map fun t => Fields.insert step (.tables t earlier) entries
    | some _ => none

def assignAll (assignments : List Assignment) (entries : Entries) : Option Entries :=
  assignments.foldlM (fun entries a => assign a.key a.value a.way entries) entries

/-- The table at the end of a header's way, changed by `change`. -/
def change (change : Entries → Option Entries) : List Text → Entries → Option Entries
  | [], entries => change entries
  | step :: way, entries =>
    match Fields.get? step entries with
    | none =>
      (Entries.change change way []).map fun t => Fields.insert step (.table .implied t) entries
    | some (.table .inline _) => none
    | some (.table origin t) =>
      (Entries.change change way t).map fun t => Fields.insert step (.table origin t) entries
    | some (.tables last earlier) =>
      (Entries.change change way last).map fun t => Fields.insert step (.tables t earlier) entries
    | some _ => none

/-- A key opened as a table of its own, with the assignments under its header. -/
def openTable (key : Text) (assignments : List Assignment) (entries : Entries) : Option Entries :=
  let opened (start : Entries) :=
    (assignAll assignments start).map fun t => Fields.insert key (.table .header t) entries
  match Fields.get? key entries with
  | none => opened []
  | some (.table .implied t) => opened t
  | some _ => none

/-- One more table in a key's list of tables, with the assignments under its header. -/
def openNext (key : Text) (assignments : List Assignment) (entries : Entries) : Option Entries :=
  let opened (earlier : List Entries) :=
    (assignAll assignments []).map fun t => Fields.insert key (.tables t earlier) entries
  match Fields.get? key entries with
  | none => opened []
  | some (.tables last earlier) => opened (last :: earlier)
  | some _ => none

/-- A header with the assignments under it. -/
def section? (header : Header) (assignments : List Assignment) (entries : Entries) :
    Option Entries :=
  match header.opening with
  | .table => change (openTable header.key assignments) header.way entries
  | .nextOfList => change (openNext header.key assignments) header.way entries

end Entries

end PagedQuery.Toml
