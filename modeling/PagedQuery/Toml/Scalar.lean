import PagedQuery.Toml.Reading
import PagedQuery.Toml.Value

/-!
# Unquoted TOML values

A value without quotes is a truth value, a whole number in base 10, 16, 8 or 2,
a decimal, or a date, a time or both. Single underscores may stand between
digits, and a number in base 10 has no zeros in front. After an underscore a
whole number in base 10 may go on with any characters; what it then spells has
no value. A whole number has a value from -2^127 to 2^128 - 1; a decimal has one
if it is nearer to a finite double than to the powers of two beyond them. The
seconds of a time may be left out.
-/
namespace PagedQuery.Toml

/-- A sign at the beginning of a text, minus as `true`, and what follows it. -/
def signed : Text → Option Bool × Text
  | '+' :: t => (some false, t)
  | '-' :: t => (some true, t)
  | t => (none, t)

/-- The text before the first character that `cuts`, and the text after it if there is one. -/
def cutAt (cuts : Char → Bool) (t : Text) : Text × Option Text :=
  (t.takeWhile (!cuts ·), (t.dropWhile (!cuts ·)).tail?)

/-- The parts of a number between underscores: a part after an underscore begins
with a digit, and a part before an underscore ends in one. -/
def isSeparated (isDigit : Char → Bool) (t : Text) : Bool :=
  let parts := Text.parts '_' t
  parts.tail.all (fun part => part.head?.any isDigit) &&
    parts.dropLast.all fun part => part.getLast?.any isDigit

/-- The digits and other characters of a number without the underscores. -/
def withoutUnderscores (t : Text) : Text := t.filter (· ≠ '_')

/-! ## Whole numbers -/

/-- The whole number has a value. -/
def fits (n : Int) : Bool :=
  -0x80000000000000000000000000000000 ≤ n && n < 0x100000000000000000000000000000000

/-- The value of a whole number, if it has one, that is written as `written`. -/
def wholeValue (written : Text) (n? : Option Int) : Value :=
  match n?.filter fits with
  | some n => .whole n
  | none => .unreadable written

/-- The number that digits spell in a base; no digits spell none. -/
def spelled? (base : Nat) (digits : Text) : Option Nat :=
  if digits = [] then none else Text.valueIn? base digits

/-- A whole number in the given base, after the two characters that name the base. -/
def based? (base : Nat) (digits : Text) : Option Value :=
  let isDigit (c : Char) : Bool := (Text.digitIn? base c).isSome
  if digits.all (fun c => c = '_' || isDigit c) ∧ isSeparated isDigit digits then
    some (wholeValue digits ((spelled? base (withoutUnderscores digits)).map Int.ofNat))
  else none

def decimalWhole (written : Text) : Value :=
  let (sign, digits) := signed (withoutUnderscores written)
  wholeValue written ((spelled? 10 digits).map fun n => if sign = some true then -(n : Int) else n)

/-! ## Decimals -/

/-- `coefficient * 10 ^ exponent` is as near to infinity as to the largest double, or nearer. -/
def overflows (coefficient : Nat) (exponent : Int) : Bool :=
  let size : Int := (Text.ofNat coefficient).length
  if coefficient = 0 ∨ size + exponent ≤ 308 then false
  else if 309 ≤ exponent then true
  else
    let bound := Nat.pow 2 1024 - Nat.pow 2 970
    bound * Nat.pow 10 (-exponent).toNat ≤ coefficient * Nat.pow 10 exponent.toNat

def isRun (c : Char) : Bool := c.isDigit || c = '_'

/-- The digits among digits and underscores, unless there are none. -/
def runDigits? (run : Text) : Option Text :=
  let digits := withoutUnderscores run
  if digits ≠ [] ∧ run.all isRun then some digits else none

/-- The size of a decimal without its sign: its digits as one number, and the power of ten
that this number is multiplied by. Absent when the text is no decimal. -/
def decimalSize? (t : Text) : Option (Nat × Int) :=
  let (mantissa, exponent) := cutAt (fun c => c = 'e' || c = 'E') t
  let (whole, fraction) := cutAt (· = '.') mantissa
  let power := exponent.map signed
  match runDigits? whole, fraction.elim (some []) runDigits?,
    power.elim (some []) fun p => runDigits? p.2 with
  | some digits, some fractionDigits, some powerDigits =>
    if whole.head? = some '0' ∧ 1 < digits.length then none
    else
      let n : Int := Text.digitsValue 0 powerDigits
      let isMinus := power.any fun p => p.1 = some true
      some (Text.digitsValue 0 (digits ++ fractionDigits),
        (if isMinus then -n else n) - fractionDigits.length)
  | _, _, _ => none

def decimal? (written unsigned : Text) : Option Value :=
  if isSeparated Char.isDigit written then
    (decimalSize? unsigned).map fun (coefficient, exponent) =>
      if overflows coefficient exponent then .unreadable written else .decimal written
  else none

/-! ## Dates -/

/-- The number that a row of digits spells; it must have exactly `size` digits. -/
def field? (size : Nat) (t : Text) : Option Nat :=
  if t.length = size ∧ t.all Char.isDigit then some (Text.digitsValue 0 t) else none

def daysOf (year month : Nat) : Nat :=
  if month = 2 then
    if year % 4 = 0 ∧ (year % 100 ≠ 0 ∨ year % 400 = 0) then 29 else 28
  else if month ∈ [4, 6, 9, 11] then 30
  else 31

/-- The text is a day, such as `1979-05-27`. -/
def isDay (t : Text) : Bool :=
  match field? 4 (t.take 4), field? 2 ((t.drop 5).take 2), field? 2 (t.drop 8) with
  | some year, some month, some day =>
    t[4]? = some '-' && t[7]? = some '-' && 1 ≤ month && month ≤ 12 && 1 ≤ day &&
      day ≤ daysOf year month
  | _, _, _ => false

def isMinute (t : Text) : Bool :=
  match field? 2 (t.take 2), field? 2 (t.drop 3) with
  | some hour, some minute => t[2]? = some ':' && hour ≤ 23 && minute ≤ 59
  | _, _ => false

def isTime (t : Text) : Bool :=
  match cutAt (· = '.') (t.drop 6) with
  | (second, fraction) =>
    isMinute t ||
      (isMinute (t.take 5) && t[5]? = some ':' && (field? 2 second).any (· ≤ 60) &&
        fraction.all fun digits => digits ≠ [] && digits.all Char.isDigit)

/-- The text is a time of day and the distance from universal time. -/
def isZonedTime (t : Text) : Bool :=
  match cutAt (fun c => c = 'Z' || c = 'z') t with
  | (time, some after) => isTime time && after = []
  | (_, none) =>
    match cutAt (fun c => c = '+' || c = '-') t with
    | (time, some distance) => isTime time && isMinute distance
    | (_, none) => false

/-- The text is a day, a time of day, or both with one separator between them. -/
def isDate (t : Text) : Bool :=
  let time := t.drop 11
  isDay t || isTime t ||
    (isDay (t.take 10) && t[10]?.any (fun c => c = 'T' || c = 't' || c = ' ') &&
      (isTime time || isZonedTime time))

/-! ## Values -/

/-- A character that ends a value without quotes. -/
def endsScalar (c : Char) : Bool :=
  [' ', '\t', '\n', '\r', '=', ',', '[', ']', '\x7b', '\x7d', '#'].contains c

/-- The characters at the beginning of a text that belong to a value without
quotes. After a day a single space may stand before a time. -/
def scalarText (t : Text) : Text × Text :=
  let first := t.takeWhile (!endsScalar ·)
  match t.drop first.length with
  | ' ' :: c :: rest =>
    if isDay first ∧ c.isDigit then
      (first ++ ' ' :: (c :: rest).takeWhile (!endsScalar ·),
        (c :: rest).dropWhile (!endsScalar ·))
    else (first, ' ' :: c :: rest)
  | rest => (first, rest)

/-- The value of a text that may have a sign, and whose `unsigned` part begins
with a decimal digit or an underscore. What comes after the digits in front
tells dates, decimals and whole numbers apart. -/
def numberOrDate? (written unsigned : Text) : Option Value :=
  let hasZero := unsigned.head? = some '0' ∧ unsigned ≠ ['0']
  match unsigned.dropWhile Char.isDigit with
  | [] => if hasZero then none else some (decimalWhole written)
  | c :: rest =>
    if c = '-' ∨ c = ':' then if isDate written then some (.date written) else none
    else if (c :: rest).any ['.', 'e', 'E'].contains then decimal? written unsigned
    else if c = '_' ∧ ¬hasZero ∧ isSeparated (fun c => (Text.digitIn? 16 c).isSome) written then
      some (decimalWhole written)
    else none

def scalarValue? (t : Text) : Option Value :=
  if t = "true".toList then some (.flag true)
  else if t = "false".toList then some (.flag false)
  else
    let (sign, unsigned) := signed t
    if unsigned = "inf".toList ∨ unsigned = "nan".toList then some (.decimal t)
    else
      match sign, unsigned with
      | none, '0' :: 'x' :: digits => based? 16 digits
      | none, '0' :: 'o' :: digits => based? 8 digits
      | none, '0' :: 'b' :: digits => based? 2 digits
      | _, c :: rest => if isRun c then numberOrDate? t (c :: rest) else none
      | _, [] => none

def scalar : Reader Value := fun t =>
  let (written, rest) := scalarText t
  (scalarValue? written).map fun value => (value, rest)

end PagedQuery.Toml
