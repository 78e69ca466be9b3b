import PagedQuery.Json.Value
import PagedQuery.Text.Blank

/-!
# Conditions

A condition is one term of a `WHERE` clause with the values of its
placeholders. Conditions are rendered leniently: one without a field, text,
pattern, subquery or values has no rendering but a reason for being left out.
Text and subqueries are trimmed, fields and verbatim text stand as they are.
-/
namespace PagedQuery

/-- SQL text with the values of its placeholders, in their order. -/
structure Fragment where
  text : Text
  values : List Value
  deriving Repr, Inhabited

def Fragment.empty : Fragment := ⟨[], []⟩

inductive Comparison where
  | eq | ne | gt | gte | lt | lte
  deriving DecidableEq, Repr, Inhabited

def Comparison.operator : Comparison → Text
  | eq => "=".toList
  | ne => "!=".toList
  | gt => ">".toList
  | gte => ">=".toList
  | lt => "<".toList
  | lte => "<=".toList

/-- The operations of a predicate that can leave out what they are given. -/
inductive Operation where
  | add | or | raw | compare | inValues | notInValues | between | notBetween | like | notLike
  | isNull | isNotNull | existsQuery | notExistsQuery | group | orGroup
  deriving DecidableEq, Repr, Inhabited

def Operation.name : Operation → Text
  | add => "add".toList
  | or => "or".toList
  | raw => "raw".toList
  | compare => "compare".toList
  | inValues => "in_values".toList
  | notInValues => "not_in_values".toList
  | between => "between".toList
  | notBetween => "not_between".toList
  | like => "like".toList
  | notLike => "not_like".toList
  | isNull => "is_null".toList
  | isNotNull => "is_not_null".toList
  | existsQuery => "exists".toList
  | notExistsQuery => "not_exists".toList
  | group => "group".toList
  | orGroup => "or_group".toList

/-- Why an operation left out what it was given. -/
inductive Reason where
  | emptyFragment | emptyField | emptySequence | emptyPattern | emptySubquery | emptyGroup
  | notSequence (kind : Text)
  deriving DecidableEq, Repr, Inhabited

def Reason.message : Reason → Text
  | emptyFragment => "empty fragment".toList
  | emptyField => "empty field".toList
  | emptySequence => "empty sequence".toList
  | emptyPattern => "empty pattern".toList
  | emptySubquery => "empty subquery".toList
  | emptyGroup => "group produced no fragments".toList
  | notSequence kind => "expected a sequence, got ".toList ++ kind

/-- An operation that left out what it was given. -/
structure Rejection where
  operation : Operation
  reason : Reason
  deriving DecidableEq, Repr

def Rejection.message (r : Rejection) : Text :=
  r.operation.name ++ " ignored: ".toList ++ r.reason.message

inductive Condition where
  | fragment (text : Text) (values : List Value)
  | verbatim (text : Text) (values : List Value)
  | compare (field : Text) (comparison : Comparison) (value : Value)
  | membership (negated : Bool) (field : Text) (values : Value)
  | range (negated : Bool) (field : Text) (low high : Value)
  | pattern (negated : Bool) (field : Text) (mask : Text)
  | nullness (negated : Bool) (field : Text)
  | existence (negated : Bool) (subquery : Text) (values : List Value)
  deriving Repr, Inhabited

namespace Condition

def operation : Condition → Operation
  | fragment .. => .add
  | verbatim .. => .raw
  | compare .. => .compare
  | membership negated .. => if negated then .notInValues else .inValues
  | range negated .. => if negated then .notBetween else .between
  | pattern negated .. => if negated then .notLike else .like
  | nullness negated .. => if negated then .isNotNull else .isNull
  | existence negated .. => if negated then .notExistsQuery else .existsQuery

/-- A keyword, after `NOT` when negated. -/
def keyword (negated : Bool) (word : String) : Text :=
  if negated then "NOT ".toList ++ word.toList else word.toList

def questionMarks (n : Nat) : Text := List.intercalate ", ".toList (List.replicate n ['?'])

/-- A term about a field, which must not be blank. -/
def onField (field : Text) (render : Except Reason Fragment) : Except Reason Fragment :=
  if Text.isAllBlank field then .error .emptyField else render

def render : Condition → Except Reason Fragment
  | fragment text values =>
    if Text.isAllBlank text then .error .emptyFragment else .ok ⟨Text.trim text, values⟩
  | verbatim text values =>
    if Text.isAllBlank text then .error .emptyFragment else .ok ⟨text, values⟩
  | compare field comparison value =>
    onField field (.ok ⟨field ++ ' ' :: comparison.operator ++ " ?".toList, [value]⟩)
  | membership negated field values =>
    onField field <|
      match values with
      | .array [] => .error .emptySequence
      | .array items =>
        .ok ⟨field ++ ' ' :: keyword negated "IN" ++ " (".toList ++ questionMarks items.length ++
          ")".toList, items⟩
      | value => .error (.notSequence value.kind)
  | range negated field low high =>
    onField field (.ok ⟨field ++ ' ' :: keyword negated "BETWEEN" ++ " ? AND ?".toList, [low, high]⟩)
  | pattern negated field mask =>
    onField field <|
      if mask.isEmpty then .error .emptyPattern
      else .ok ⟨field ++ ' ' :: keyword negated "LIKE" ++ " ?".toList, [.text mask]⟩
  | nullness negated field =>
    onField field
      (.ok ⟨field ++ (if negated then " IS NOT NULL" else " IS NULL").toList, []⟩)
  | existence negated subquery values =>
    if Text.isAllBlank subquery then .error .emptySubquery
    else .ok ⟨keyword negated "EXISTS" ++ " (".toList ++ Text.trim subquery ++ ")".toList, values⟩

end Condition

end PagedQuery
