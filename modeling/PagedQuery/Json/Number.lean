import PagedQuery.Json.Shortest

/-!
# Numbers of JSON values

A number is an integer from -2^63 to 2^64 - 1 or a finite double. Integers are
written in decimal. A double is written with its shortest digits, in plain
notation while the power of ten of its first digit is from -5 to 15 and
otherwise with an exponent that carries its sign; a plain number without a
fraction ends in `.0`.
-/
namespace PagedQuery

inductive Number where
  | integer (value : Int) (fits : -0x8000000000000000 ≤ value ∧ value < 0x10000000000000000)
  | double (value : Double)
  deriving DecidableEq, Repr

namespace Number

/-- The integer as a number, if it is in the range of numbers. -/
def ofInt? (value : Int) : Option Number :=
  if fits : -0x8000000000000000 ≤ value ∧ value < 0x10000000000000000 then
    some (.integer value fits)
  else none

def ofUInt64 (n : UInt64) : Number :=
  .integer n.toNat (by have := n.toNat_lt; omega)

/-- How a decimal is laid out in text. -/
structure Layout where
  /-- lowest power of ten of the first digit that is written without an exponent -/
  plainFrom : Int
  /-- highest power of ten of the first digit that is written without an exponent -/
  plainTo : Int
  /-- what follows a plain number without a fraction -/
  whole : Text
  /-- what stands before the exponent's sign -/
  exponentMark : Text
  /-- what stands before an exponent that is not negative -/
  positiveSign : Text

/-- Doubles are plain from 10^-5 to below 10^16, whole ones end in `.0`, and exponents are signed. -/
def doubleLayout : Layout := ⟨-5, 15, ".0".toList, "e".toList, "+".toList⟩

/-- Digits with a point after the first `n` of them; missing places are zeros. -/
def placePoint (digits : Text) (n : Nat) (whole : Text) : Text :=
  if digits.length ≤ n then digits ++ List.replicate (n - digits.length) '0' ++ whole
  else digits.take n ++ '.' :: digits.drop n

/-- The text of the digits `d.ddd` times a power of ten. -/
def Layout.render (layout : Layout) (digits : Text) (power : Int) : Text :=
  if layout.plainFrom ≤ power ∧ power ≤ layout.plainTo then
    if 0 ≤ power then placePoint digits (power.toNat + 1) layout.whole
    else "0.".toList ++ List.replicate ((-power).toNat - 1) '0' ++ digits
  else
    let mantissa := if digits.length ≤ 1 then digits else placePoint digits 1 []
    let exponent :=
      if 0 ≤ power then layout.positiveSign ++ Text.ofNat power.toNat else Text.ofInt power
    mantissa ++ layout.exponentMark ++ exponent

def doubleText (x : Double) : Text :=
  let d := x.shortest
  let digits := Text.ofNat d.coefficient
  let power := d.exponent + (digits.length - 1 : Int)
  let kept := Text.trimEndBy (· = '0') digits
  let significant := if kept.isEmpty then ['0'] else kept
  (if x.isNegative then ['-'] else []) ++ doubleLayout.render significant power

def text : Number → Text
  | integer value _ => Text.ofInt value
  | double x => doubleText x

end Number

end PagedQuery
