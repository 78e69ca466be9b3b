import PagedQuery.Json.Value
import PagedQuery.Settings.Basic
import PagedQuery.Toml.Value

/-!
# Stored settings

Settings are stored as JSON or TOML values. A structure is stored as a table of
its fields by name, in which values of other names count for nothing but have to
be readable, or as the list of its fields in order, of which the last ones may
be left out. Nothing is converted: a number is not a text, and a decimal is not
a whole number.
-/
namespace PagedQuery

/-- A stored value, one level deep. -/
inductive View (α : Type) where
  | null
  | text (t : Text)
  | flag (b : Bool)
  | whole (n : Int)
  | list (items : List α)
  | table (entries : Fields α)
  | other

/-- A form in which values are stored. -/
structure StoredForm (α : Type) where
  view : α → View α
  /-- nothing in the value keeps it from being read -/
  isReadable : α → Bool
  /-- a list may go on after the fields of the structure that it stands for -/
  toleratesSurplus : Bool

namespace StoredForm

def json : StoredForm Value where
  view
    | .null => .null
    | .bool b => .flag b
    | .number (.integer n _) => .whole n
    | .number (.double _) => .other
    | .text t => .text t
    | .array items => .list items
    | .object fields => .table fields
  isReadable _ := true
  toleratesSurplus := false

/-- TOML values. A date counts as a table without settings. -/
def toml : StoredForm Toml.Value where
  view
    | .text t => .text t
    | .flag b => .flag b
    | .whole n => .whole n
    | .decimal _ | .unreadable _ => .other
    | .date _ => .table []
    | .array items => .list items
    | .table _ entries => .table entries
    | .tables last earlier => .list ((last :: earlier).reverse.map (.table .header))
  isReadable := Toml.Value.isReadable
  toleratesSurplus := true

variable {α : Type} (f : StoredForm α)

def text? (v : α) : Option Text :=
  match f.view v with
  | .text t => some t
  | _ => none

def flag? (v : α) : Option Bool :=
  match f.view v with
  | .flag b => some b
  | _ => none

/-- A whole number of at most the given number of bits. -/
def unsigned? (bits : Nat) (v : α) : Option Nat :=
  match f.view v with
  | .whole n => if 0 ≤ n ∧ n < Nat.pow 2 bits then some n.toNat else none
  | _ => none

/-- A value that may be null. -/
def nullable? {β : Type} (read : α → Option β) (v : α) : Option (Option β) :=
  match f.view v with
  | .null => some none
  | _ => (read v).map some

/-- The fields of a stored structure by their names. -/
def fields? (names : List Text) (v : α) : Option (Fields α) :=
  match f.view v with
  | .table entries =>
    if entries.all fun (name, v) => names.contains name || f.isReadable v then some entries
    else none
  | .list items =>
    if items.length ≤ names.length ∨ f.toleratesSurplus then some (names.zip items) else none
  | _ => none

end StoredForm

/-- A field that has to be there. -/
def Fields.required? {α β : Type} (fields : Fields α) (name : Text) (read : α → Option β) :
    Option β :=
  (fields.get? name).bind read

/-- A field that may be left out. -/
def Fields.orDefault? {α β : Type} (fields : Fields α) (name : Text) (read : α → Option β)
    (default : β) : Option β :=
  match fields.get? name with
  | none => some default
  | some v => read v

namespace DatabaseSettings

def names : List Text :=
  ["host".toList, "port".toList, "database".toList, "username".toList, "password".toList,
    "min_connections".toList, "max_connections".toList, "connection_timeout_seconds".toList,
    "idle_timeout_seconds".toList, "max_lifetime_seconds".toList]

/-- The database settings that a stored value holds. -/
def ofStored? {α : Type} (f : StoredForm α) (v : α) : Option DatabaseSettings := do
  let fields ← f.fields? names v
  let word (bits : Nat) (name : String) : Option Nat :=
    fields.required? name.toList (f.unsigned? bits)
  let text (name : String) : Option Text := fields.required? name.toList f.text?
  some
    { host := ← text "host"
      port := UInt16.ofNat (← word 16 "port")
      database := ← text "database"
      username := ← text "username"
      password := ← text "password"
      minConnections := UInt32.ofNat (← word 32 "min_connections")
      maxConnections := UInt32.ofNat (← word 32 "max_connections")
      connectionTimeoutSeconds := UInt64.ofNat (← word 64 "connection_timeout_seconds")
      idleTimeoutSeconds := UInt64.ofNat (← word 64 "idle_timeout_seconds")
      maxLifetimeSeconds := UInt64.ofNat (← word 64 "max_lifetime_seconds") }

end DatabaseSettings

namespace PagingSettings

def names : List Text :=
  ["dialect".toList, "default_page_size".toList, "max_page_size".toList, "count_alias".toList,
    "strict_builders".toList]

def ofStored? {α : Type} (f : StoredForm α) (v : α) : Option PagingSettings := do
  let fields ← f.fields? names v
  let default : PagingSettings := {}
  let size (name : String) (default : UInt64) : Option UInt64 :=
    fields.orDefault? name.toList (fun v => (f.unsigned? 64 v).map UInt64.ofNat) default
  let text (name : String) (default : Text) : Option Text :=
    fields.orDefault? name.toList f.text? default
  some
    { dialect := ← text "dialect" default.dialect
      defaultPageSize := ← size "default_page_size" default.defaultPageSize
      maxPageSize := ← size "max_page_size" default.maxPageSize
      countAlias := ← text "count_alias" default.countAlias
      strictBuilders :=
        ← fields.orDefault? "strict_builders".toList f.flag? default.strictBuilders }

end PagingSettings

namespace Settings

def names : List Text := ["database".toList, "pagination".toList]

def ofStored? {α : Type} (f : StoredForm α) (v : α) : Option Settings := do
  let sections ← f.fields? names v
  some
    { database :=
        ← sections.orDefault? "database".toList
          (f.nullable? (DatabaseSettings.ofStored? f)) none
      paging := ← sections.orDefault? "pagination".toList (PagingSettings.ofStored? f) {} }

end Settings

end PagedQuery
