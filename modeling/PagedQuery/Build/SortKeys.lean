import PagedQuery.Dialect
import PagedQuery.Literal

/-!
# Sort keys

The text after `ORDER BY`. A setting replaces all keys, an addition puts one
more key after them, and either leaves them as they are when it has nothing to
say. Random order is spelled as the dialect in force spells it.
-/
namespace PagedQuery

inductive Direction where
  | asc | desc
  deriving DecidableEq, Repr, Inhabited

def Direction.keyword : Direction → Text
  | asc => "ASC".toList
  | desc => "DESC".toList

structure SortKeys where
  text : Text := []
  dialect : Dialect := .mysql
  deriving DecidableEq, Repr, Inhabited

namespace SortKeys

/-- What replaces the keys. -/
inductive Setting where
  | text (keys : Text)
  | field (field : Text) (direction : Direction)
  | several (keys : List Text)
  | ranked (field : Text) (values : List Value)
  | random
  deriving Repr, Inhabited

inductive Step where
  | useDialect (dialect : Dialect)
  | set (setting : Setting)
  | append (key : Text)
  | onlyIf (holds : Bool) (step : Step)
  deriving Repr, Inhabited

/-- Keys or other parts of a text, separated by commas. -/
def commaSeparated (parts : List Text) : Text := List.intercalate ", ".toList parts

/-- `WHEN value THEN rank` for each value, with ranks from `rank` on. -/
def ranks (rank : Nat) : List Value → List Text
  | [] => []
  | value :: values =>
    ("WHEN ".toList ++ Literal.render value ++ " THEN ".toList ++ Text.ofNat rank) ::
      ranks (rank + 1) values

/-- The keys that a setting spells; empty when it says nothing. -/
def Setting.render (dialect : Dialect) : Setting → Text
  | text keys => Text.trim keys
  | field name direction =>
    if Text.isAllBlank name then [] else Text.trim name ++ ' ' :: direction.keyword
  | several keys => commaSeparated ((keys.map Text.trim).filter (· ≠ []))
  | ranked name values =>
    if Text.isAllBlank name ∨ values.isEmpty then []
    else "CASE ".toList ++ Text.trim name ++ ' ' ::
      List.intercalate [' '] (ranks 0 values) ++ " END".toList
  | random => dialect.randomKey

/-- The keys are replaced, unless the setting says nothing. -/
def set (s : SortKeys) (setting : Setting) : SortKeys :=
  match setting.render s.dialect with
  | [] => s
  | keys => { s with text := keys }

/-- One more key after the others, unless it is blank. -/
def append (s : SortKeys) (key : Text) : SortKeys :=
  match Text.trim key with
  | [] => s
  | key => { s with text := if s.text.isEmpty then key else s.text ++ ", ".toList ++ key }

def apply (s : SortKeys) : Step → SortKeys
  | .useDialect dialect => { s with dialect }
  | .set setting => s.set setting
  | .append key => s.append key
  | .onlyIf holds step => if holds then apply s step else s

def applyAll (s : SortKeys) (steps : List Step) : SortKeys := steps.foldl apply s

def isEmpty (s : SortKeys) : Bool := s.text.isEmpty

def build (s : SortKeys) : Text := if s.isEmpty then [] else "ORDER BY ".toList ++ s.text

theorem build_isEmpty (s : SortKeys) : s.build.isEmpty = s.isEmpty := by
  unfold build; split <;> simp_all [isEmpty]

end SortKeys

end PagedQuery
