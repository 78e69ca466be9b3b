import PagedQuery.Text.Basic

/-!
# Reading numbers

A number is a row of decimal digits, with a plus sign in front or without, that
spells at most a given number. The first fault counts, from left to right: a
character that is no digit, or digits that already spell too much.
-/
namespace PagedQuery.Text

inductive NumberFault where
  | empty
  | invalidDigit
  | tooLarge
  deriving DecidableEq, Repr

def NumberFault.message : NumberFault → Text
  | empty => "cannot parse integer from empty string".toList
  | invalidDigit => "invalid digit found in string".toList
  | tooLarge => "number too large to fit in target type".toList

/-- The number that digits spell after the number `start`. -/
def readDigits (greatest start : Nat) : Text → Except NumberFault Nat
  | [] => .ok start
  | c :: t =>
    if c.isDigit then
      let value := 10 * start + (c.toNat - '0'.toNat)
      if value ≤ greatest then readDigits greatest value t else .error .tooLarge
    else .error .invalidDigit

def readNumber (greatest : Nat) : Text → Except NumberFault Nat
  | [] => .error .empty
  | ['+'] => .error .invalidDigit
  | '+' :: t => readDigits greatest 0 t
  | t => readDigits greatest 0 t

end PagedQuery.Text
