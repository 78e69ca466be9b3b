import PagedQuery.Lexical.Quote

/-!
# Placeholders

Statements are put together with `?` for every bound value and are restyled
into the numbered style of a dialect as the last step. A `?` inside quotes is
a plain character. Numbers go on after the highest token of the same style
that the statement already has outside quotes; digits that do not fit 64 bits
are no number. Indices are 64-bit words.
-/
namespace PagedQuery

/-- How a dialect spells the place of a bound value. -/
inductive PlaceholderStyle where
  | question | dollar | atP | colon
  deriving DecidableEq, Repr, Inhabited

namespace PlaceholderStyle

/-- What stands before the number; the question mark style has no numbers. -/
def marker? : PlaceholderStyle → Option Text
  | question => none
  | dollar => some ['$']
  | atP => some ['@', 'p']
  | colon => some [':']

def token (style : PlaceholderStyle) (index : UInt64) : Text :=
  match style.marker? with
  | none => ['?']
  | some marker => marker ++ Text.ofNat index.toNat

end PlaceholderStyle

namespace Placeholder

/-- Number of question marks outside quotes, in a text that begins in the state `q`. -/
def countFrom (q : Quote) : Text → Nat
  | [] => 0
  | c :: t => (if q = .outside ∧ c = '?' then 1 else 0) + countFrom (q.step c) t

def count (t : Text) : Nat := countFrom .outside t

/-- The number that stands at the beginning of the text, if it fits 64 bits. -/
def leadingNumber? (t : Text) : Option UInt64 :=
  let digits := t.takeWhile Char.isDigit
  let value := Text.digitsValue 0 digits
  if digits ≠ [] ∧ value < UInt64.size then some (UInt64.ofNat value) else none

/-- The number of the token with the given marker at the beginning of the text. -/
def leadingToken? (marker : Text) (t : Text) : Option UInt64 :=
  if marker.isPrefixOf t then leadingNumber? (t.drop marker.length) else none

/-- The highest number among the tokens outside quotes, zero if there is none,
in a text that begins in the state `q`. -/
def highestFrom (marker : Text) (q : Quote) : Text → UInt64
  | [] => 0
  | c :: t =>
    let here := if q = .outside then leadingToken? marker (c :: t) else none
    max (here.getD 0) (highestFrom marker (q.step c) t)

def highest (style : PlaceholderStyle) (t : Text) : UInt64 :=
  match style.marker? with
  | none => 0
  | some marker => highestFrom marker .outside t

/-- The text with its placeholders numbered after `used`, read from the state `q`. -/
def numberFrom (style : PlaceholderStyle) (used : UInt64) (q : Quote) : Text → Text
  | [] => []
  | c :: t =>
    if q = .outside ∧ c = '?' then
      style.token (used + 1) ++ numberFrom style (used + 1) (q.step c) t
    else c :: numberFrom style used (q.step c) t

def restyle (style : PlaceholderStyle) (t : Text) : Text :=
  match style with
  | .question => t
  | style => numberFrom style (highest style t) .outside t

@[simp] theorem countFrom_nil (q : Quote) : countFrom q [] = 0 := rfl

theorem countFrom_append (q : Quote) (s t : Text) :
    countFrom q (s ++ t) = countFrom q s + countFrom (q.after s) t := by
  induction s generalizing q with
  | nil => simp
  | cons c s ih => simp [countFrom, ih, Nat.add_assoc]

theorem count_append {s : Text} (hs : Quote.Closed s) (t : Text) :
    count (s ++ t) = count s + count t := by
  rw [count, countFrom_append, show Quote.after .outside s = .outside from hs]; rfl

@[simp] theorem restyle_question (t : Text) : restyle .question t = t := rfl

end Placeholder

end PagedQuery
