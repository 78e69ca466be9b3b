import PagedQuery.Lexical.Quote

/-!
# Parenthesis depth

The place of a character in SQL text is the open quotation and the number of
open parentheses. Parentheses inside quotes do not count, and a closing
parenthesis without an open one leaves the depth at zero. A place is at the
top level when it is outside quotes and outside parentheses; closed text
begins and ends there and closes only parentheses of its own.
-/
namespace PagedQuery

/-- The open quotation and the number of open parentheses before a character. -/
structure Place where
  quote : Quote := .outside
  depth : Nat := 0
  deriving DecidableEq, Repr, Inhabited

namespace Place

def start : Place := {}

/-- Outside quotes and outside parentheses. -/
def IsTop (p : Place) : Prop := p.quote = .outside ∧ p.depth = 0

instance (p : Place) : Decidable p.IsTop := inferInstanceAs (Decidable (_ ∧ _))

/-- The depth after a character that stands outside quotes. -/
def depthAfter (depth : Nat) (c : Char) : Nat :=
  if c = '(' then depth + 1 else if c = ')' then depth - 1 else depth

/-- The place after one more character. -/
def step (p : Place) (c : Char) : Place :=
  { quote := p.quote.step c
    depth := if p.quote = .outside then depthAfter p.depth c else p.depth }

def after (p : Place) (t : Text) : Place := t.foldl step p

/-- No closing parenthesis of the text, read from the place `p`, lacks an opening one. -/
def Balanced (p : Place) : Text → Prop
  | [] => True
  | c :: t => ¬(p.quote = .outside ∧ p.depth = 0 ∧ c = ')') ∧ Balanced (p.step c) t

instance Balanced.decidable : (p : Place) → (t : Text) → Decidable (Balanced p t)
  | _, [] => .isTrue trivial
  | p, c :: t => have := Balanced.decidable (p.step c) t; inferInstanceAs (Decidable (_ ∧ _))

/-- The text ends at the top level and closes no parenthesis that it did not open. -/
def Closed (t : Text) : Prop := after start t = start ∧ Balanced start t

instance (t : Text) : Decidable (Closed t) := inferInstanceAs (Decidable (_ ∧ _))

@[simp] theorem after_nil (p : Place) : after p [] = p := rfl

@[simp] theorem after_cons (p : Place) (c : Char) (t : Text) :
    after p (c :: t) = after (p.step c) t := rfl

theorem after_append (p : Place) (s t : Text) : after p (s ++ t) = after (after p s) t := by
  simp [after]

@[simp] theorem step_quote (p : Place) (c : Char) : (p.step c).quote = p.quote.step c := rfl

/-- The quotation of a place does not depend on parentheses. -/
@[simp] theorem after_quote (p : Place) (t : Text) : (after p t).quote = p.quote.after t := by
  induction t generalizing p with
  | nil => rfl
  | cons c t ih => simp [ih]

theorem start_isTop : start.IsTop := ⟨rfl, rfl⟩

theorem IsTop.eq_start {p : Place} (h : p.IsTop) : p = start := by
  cases p; simp_all [IsTop, start]

theorem closed_nil : Closed [] := ⟨rfl, trivial⟩

theorem Closed.quote {t : Text} (h : Closed t) : Quote.Closed t := by
  have := congrArg Place.quote h.1
  simpa [Quote.Closed, start] using this

end Place

end PagedQuery
