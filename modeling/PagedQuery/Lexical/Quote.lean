import PagedQuery.Text.Basic

/-!
# Quoted stretches of SQL text

SQL text is outside quotes or inside a single-quoted literal, a double-quoted
identifier or a back-quoted identifier. A quotation mark opens its own kind of
quotation from outside and closes it from inside; inside, the other marks are
plain characters. A doubled mark closes and opens again, so it needs no case
of its own. Backslashes and comments have no meaning here.
-/
namespace PagedQuery

/-- The quotation that is open, if any. -/
inductive Quote where
  | outside | single | double | back
  deriving DecidableEq, Repr, Inhabited

namespace Quote

/-- The mark that opens and closes a quotation. -/
def mark? : Quote → Option Char
  | outside => none
  | single => some '\''
  | double => some '"'
  | back => some '`'

def ofMark : Char → Quote
  | '\'' => single
  | '"' => double
  | '`' => back
  | _ => outside

/-- The state after one more character. -/
def step (q : Quote) (c : Char) : Quote :=
  match q with
  | outside => ofMark c
  | q => if q.mark? = some c then outside else q

def after (q : Quote) (t : Text) : Quote := t.foldl step q

/-- Quotations that begin in the text end in it. -/
def Closed (t : Text) : Prop := after outside t = outside

instance (t : Text) : Decidable (Closed t) := inferInstanceAs (Decidable (_ = _))

@[simp] theorem after_nil (q : Quote) : after q [] = q := rfl

@[simp] theorem after_cons (q : Quote) (c : Char) (t : Text) :
    after q (c :: t) = after (q.step c) t := rfl

theorem after_append (q : Quote) (s t : Text) : after q (s ++ t) = after (after q s) t := by
  simp [after]

theorem closed_nil : Closed [] := rfl

theorem Closed.append {s t : Text} (hs : Closed s) (ht : Closed t) : Closed (s ++ t) := by
  rw [Closed, after_append, hs, ht]

/-- After closed text a state outside quotes is what the rest makes of it. -/
theorem Closed.after_append {s : Text} (hs : Closed s) (t : Text) :
    after outside (s ++ t) = after outside t := by
  rw [Quote.after_append, hs]

end Quote

end PagedQuery
