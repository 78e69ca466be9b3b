import PagedQuery.Build.Predicate

/-!
# Filters

A filter restricts the rows of a statement: by text with values, by the fields
of a map, or by a predicate. Fields stand in the order of their keys, each as
an equation, a membership for an array, or a null test; an object is no value
that a field can have. A filter without text restricts nothing.
-/
namespace PagedQuery

inductive FilterError where
  | rejected (rejection : Rejection)
  | unsupported (field : Text) (kind : Text)
  deriving DecidableEq, Repr

def FilterError.message : FilterError → Text
  | rejected r => r.message
  | unsupported field kind =>
    "Unsupported filter value for field '".toList ++ field ++ "': ".toList ++ kind

inductive Filter where
  | none
  | raw (text : Text) (values : List Value)
  | fields (fields : List (Text × Value))
  | predicate (p : Predicate)
  deriving Repr, Inhabited

namespace Filter

/-- The filter on the given fields; of equal keys the last one counts. -/
def ofFields (pairs : List (Text × Value)) : Filter := fields (Fields.ofList pairs)

/-- The condition that a field puts on its column; an object puts none. -/
def fieldCondition? (key : Text) : Value → Option Condition
  | .null => some (.nullness false key)
  | .array items => some (.membership false key (.array items))
  | .object _ => Option.none
  | value => some (.compare key .eq value)

/-- The predicate of the fields in order, after those of `p`. -/
def requireFields (p : Predicate) : List (Text × Value) → Except FilterError Predicate
  | [] => .ok p
  | (key, value) :: rest =>
    match fieldCondition? key value with
    | some condition => requireFields (p.require condition) rest
    | Option.none => .error (.unsupported key value.kind)

def render : Filter → Except FilterError Fragment
  | none => .ok .empty
  | raw text values => .ok (if Text.isAllBlank text then .empty else ⟨Text.trim text, values⟩)
  | fields pairs => (requireFields (.empty false) pairs).map Predicate.build
  | predicate p => p.tryBuild.mapError .rejected

def isEmpty : Filter → Bool
  | none => true
  | raw text _ => Text.isAllBlank text
  | fields pairs => pairs.isEmpty
  | predicate p => p.isEmpty

end Filter

end PagedQuery
