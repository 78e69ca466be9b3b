/-!
# Text

SQL text, names and messages are lists of characters, and a position in a text
counts characters. This module holds the few operations that the standard list
API does not name: the letters in one case, decimal digits of a number, the
size in UTF-8 bytes. Neither case map touches a letter outside ASCII.
-/
namespace PagedQuery

/-- Text is a list of characters; the empty text is `[]`. -/
abbrev Text := List Char

namespace Text

def lower (t : Text) : Text := t.map Char.toLower

def upper (t : Text) : Text := t.map Char.toUpper

def ofNat (n : Nat) : Text := Nat.toDigits 10 n

def ofInt : Int → Text
  | .ofNat n => ofNat n
  | .negSucc n => '-' :: ofNat (n + 1)

def utf8Size : Text → Nat
  | [] => 0
  | c :: t => c.utf8Size + utf8Size t

/-- Value of a row of decimal digits, read after the value `start`. -/
def digitsValue (start : Nat) (digits : Text) : Nat :=
  digits.foldl (fun value d => 10 * value + (d.toNat - '0'.toNat)) start

/-- Value of a digit in a base up to 16; letters of either case count from ten on. -/
def digitIn? (base : Nat) (c : Char) : Option Nat :=
  let value? :=
    if c.isDigit then some (c.toNat - '0'.toNat)
    else if 'a' ≤ c ∧ c ≤ 'f' then some (c.toNat - 'a'.toNat + 10)
    else if 'A' ≤ c ∧ c ≤ 'F' then some (c.toNat - 'A'.toNat + 10)
    else none
  value?.filter (· < base)

/-- Value of a row of digits in a base up to 16; an empty row is zero. -/
def valueIn? (base : Nat) (digits : Text) : Option Nat :=
  digits.foldlM (fun value c => (digitIn? base c).map (base * value + ·)) 0

/-- The parts of a text between separators, one more than there are separators. -/
def parts (separator : Char) : Text → List Text
  | [] => [[]]
  | c :: t =>
    if c = separator then [] :: parts separator t
    else
      match parts separator t with
      | [] => [[c]]
      | part :: more => (c :: part) :: more

/-- Leaves out the trailing characters for which `drop` holds. -/
def trimEndBy (drop : Char → Bool) (t : Text) : Text := (t.reverse.dropWhile drop).reverse

def trimBy (drop : Char → Bool) (t : Text) : Text := trimEndBy drop (t.dropWhile drop)

/-- The text stands before the other one in the order of code points. -/
def before : Text → Text → Bool
  | _, [] => false
  | [], _ :: _ => true
  | c :: s, d :: t => if c = d then before s t else c.toNat < d.toNat

@[simp] theorem lower_length (t : Text) : (lower t).length = t.length := by simp [lower]

@[simp] theorem upper_length (t : Text) : (upper t).length = t.length := by simp [upper]

theorem upper_append (s t : Text) : upper (s ++ t) = upper s ++ upper t := by simp [upper]

@[simp] theorem utf8Size_nil : utf8Size [] = 0 := rfl

@[simp] theorem utf8Size_cons (c : Char) (t : Text) :
    utf8Size (c :: t) = c.utf8Size + utf8Size t := rfl

theorem utf8Size_append (s t : Text) : utf8Size (s ++ t) = utf8Size s + utf8Size t := by
  induction s with
  | nil => simp
  | cons c s ih => simp [ih, Nat.add_assoc]

theorem trimEndBy_prefix (drop : Char → Bool) (t : Text) : trimEndBy drop t <+: t := by
  have h : t.reverse.dropWhile drop <:+ t.reverse := List.dropWhile_suffix drop
  simpa [trimEndBy] using List.reverse_prefix.mpr h

theorem before_irrefl (t : Text) : before t t = false := by
  induction t with
  | nil => rfl
  | cons c t ih => simp [before, ih]

theorem before_trans {s t u : Text} (hst : before s t = true) (htu : before t u = true) :
    before s u = true := by
  induction t generalizing s u with
  | nil => cases s <;> simp [before] at hst
  | cons d t ih =>
    match s, u with
    | _, [] => simp [before] at htu
    | [], e :: u => simp [before]
    | c :: s, e :: u =>
      simp only [before] at hst htu ⊢
      split at hst <;> split at htu <;> rename_i hcd hde
      · subst hcd hde
        simpa using ih hst htu
      · subst hcd
        simpa [hde] using htu
      · subst hde
        simpa [hcd] using hst
      · simp only [decide_eq_true_eq] at hst htu
        have hce : c ≠ e := by
          rintro rfl
          omega
        simp only [hce, if_false, decide_eq_true_eq]
        omega

/-- Of two different texts one stands before the other. -/
theorem before_of_ne {s t : Text} (h : s ≠ t) (hst : before s t = false) : before t s = true := by
  induction s generalizing t with
  | nil => cases t with
    | nil => exact absurd rfl h
    | cons d t => simp [before] at hst
  | cons c s ih =>
    match t with
    | [] => simp [before]
    | d :: t =>
      simp only [before] at hst ⊢
      by_cases hcd : c = d
      · subst hcd
        simp only [if_true] at hst ⊢
        exact ih (fun e => h (by rw [e])) hst
      · have hdc : d ≠ c := fun e => hcd e.symm
        have hnat : c.toNat ≠ d.toNat := fun e => hcd (Char.toNat_inj.mp e)
        simp only [hcd, hdc, if_false, decide_eq_false_iff_not, decide_eq_true_eq] at hst ⊢
        omega

end Text

end PagedQuery
