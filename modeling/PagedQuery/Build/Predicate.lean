import PagedQuery.Build.Condition

/-!
# Predicates

A predicate collects terms that are joined with `AND`, and the values of their
placeholders in order. It is built by a list of steps. An alternative is joined
with `OR` to the last term only, both in parentheses. A group is a predicate of
its own whose terms become one term in parentheses. A step that has nothing to
add leaves terms and values as they are; a strict predicate also keeps why, and
gives its first rejection in place of its fragment.
-/
namespace PagedQuery

structure Predicate where
  terms : List Text := []
  values : List Value := []
  strict : Bool := false
  rejections : List Rejection := []
  deriving Repr, Inhabited

namespace Predicate

inductive Step where
  | require (condition : Condition)
  | alternative (text : Text) (values : List Value)
  | group (steps : List Step)
  | orGroup (steps : List Step)
  | onlyIf (holds : Bool) (step : Step)
  deriving Repr, Inhabited

def empty (strict : Bool) : Predicate := { strict }

def parenthesized (t : Text) : Text := '(' :: t ++ [')']

/-- Terms joined with `AND`. -/
def conjunction (terms : List Text) : Text := List.intercalate " AND ".toList terms

def push (p : Predicate) (term : Fragment) : Predicate :=
  { p with terms := p.terms ++ [term.text], values := p.values ++ term.values }

/-- The last term becomes `(last) OR alternative`; without one the alternative is given by `alone`. -/
def combineLast (p : Predicate) (alternative alone : Text) (values : List Value) : Predicate :=
  match p.terms.getLast? with
  | none => p.push ⟨alone, values⟩
  | some last =>
    { p with
      terms := p.terms.dropLast ++ [parenthesized last ++ " OR ".toList ++ alternative]
      values := p.values ++ values }

/-- Nothing is added; a strict predicate keeps the reason. -/
def reject (p : Predicate) (operation : Operation) (reason : Reason) : Predicate :=
  if p.strict then { p with rejections := p.rejections ++ [⟨operation, reason⟩] } else p

def require (p : Predicate) (condition : Condition) : Predicate :=
  match condition.render with
  | .ok term => p.push term
  | .error reason => p.reject condition.operation reason

/-- The last term or the given text. -/
def alternative (p : Predicate) (text : Text) (values : List Value) : Predicate :=
  if Text.isAllBlank text then p.reject .or .emptyFragment
  else p.combineLast (parenthesized (Text.trim text)) (Text.trim text) values

/-- What a finished group adds: one term of its own, or an alternative to the
last term. Its rejections come first. -/
def absorb (p : Predicate) (operation : Operation) (group : Predicate) : Predicate :=
  let p := { p with rejections := p.rejections ++ group.rejections }
  if group.terms.isEmpty then p.reject operation .emptyGroup
  else
    let body := parenthesized (conjunction group.terms)
    if operation = .orGroup then p.combineLast body body group.values
    else p.push ⟨body, group.values⟩

mutual

def apply (p : Predicate) : Step → Predicate
  | .require condition => p.require condition
  | .alternative text values => p.alternative text values
  | .group steps => p.absorb .group (applyAll (empty p.strict) steps)
  | .orGroup steps => p.absorb .orGroup (applyAll (empty p.strict) steps)
  | .onlyIf holds step => if holds then apply p step else p

def applyAll (p : Predicate) : List Step → Predicate
  | [] => p
  | step :: steps => applyAll (apply p step) steps

end

/-- The terms joined with `AND`, with all values. -/
def build (p : Predicate) : Fragment := ⟨conjunction p.terms, p.values⟩

def tryBuild (p : Predicate) : Except Rejection Fragment :=
  match p.rejections with
  | rejection :: _ => if p.strict then .error rejection else .ok p.build
  | [] => .ok p.build

def isEmpty (p : Predicate) : Bool := p.terms.isEmpty

@[simp] theorem push_strict (p : Predicate) (t : Fragment) : (p.push t).strict = p.strict := rfl

@[simp] theorem combineLast_strict (p : Predicate) (a b : Text) (vs : List Value) :
    (p.combineLast a b vs).strict = p.strict := by
  unfold combineLast; split <;> rfl

@[simp] theorem reject_strict (p : Predicate) (o : Operation) (r : Reason) :
    (p.reject o r).strict = p.strict := by
  unfold reject; split <;> rfl

@[simp] theorem reject_terms (p : Predicate) (o : Operation) (r : Reason) :
    (p.reject o r).terms = p.terms := by
  unfold reject; split <;> rfl

@[simp] theorem reject_values (p : Predicate) (o : Operation) (r : Reason) :
    (p.reject o r).values = p.values := by
  unfold reject; split <;> rfl

end Predicate

end PagedQuery
