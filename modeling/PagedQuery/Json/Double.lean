import PagedQuery.Text.Basic

/-!
# Double precision numbers

A finite IEEE 754 double is kept as its 64 bits: a sign, eleven bits of
exponent, 52 bits of fraction. Its magnitude is `significand * 2 ^ scale`. A
natural number below 2^64 goes to the nearest double, and from half way to the
one with an even significand.
-/
namespace PagedQuery

/-- A finite double, by its bits. -/
structure Double where
  bits : UInt64
  finite : bits.toNat / 0x10000000000000 % 0x800 ≠ 0x7FF := by decide
  deriving DecidableEq, Repr

namespace Double

/-- The double with the given bits, unless they are an infinity or not a number. -/
def ofBits? (bits : UInt64) : Option Double :=
  if h : bits.toNat / 0x10000000000000 % 0x800 ≠ 0x7FF then some ⟨bits, h⟩ else none

def zero : Double := ⟨0, by decide⟩

instance : Inhabited Double := ⟨zero⟩

def isNegative (x : Double) : Bool := 0x8000000000000000 ≤ x.bits.toNat

def exponentBits (x : Double) : Nat := x.bits.toNat / 0x10000000000000 % 0x800

def fraction (x : Double) : Nat := x.bits.toNat % 0x10000000000000

def significand (x : Double) : Nat :=
  if x.exponentBits = 0 then x.fraction else 0x10000000000000 + x.fraction

/-- The power of two of the last place of the significand. -/
def scale (x : Double) : Int := (max x.exponentBits 1 : Nat) - 1075

/-- The next smaller magnitude is half as far away as the next larger one. -/
def isLowerGapHalved (x : Double) : Bool := x.fraction = 0 && 1 < x.exponentBits

/-- `n / 2 ^ k` to the nearest whole number, a half to the even neighbour. -/
def halveRounded (n k : Nat) : Nat :=
  let unit := Nat.pow 2 k
  let whole := n / unit
  let rest := 2 * (n % unit)
  if unit < rest ∨ rest = unit ∧ whole % 2 = 1 then whole + 1 else whole

/-- The 53-bit significand nearest to a positive number; rounding up may carry into the next bit. -/
def roundedSignificand (n : Nat) : Nat :=
  if n.log2 ≤ 52 then n * Nat.pow 2 (52 - n.log2) else halveRounded n (n.log2 - 52)

/-- The bits of the double nearest to a natural number. A carry out of the
significand moves the exponent on by one, which is what it should be. -/
def natBits (n : Nat) : Nat :=
  if n = 0 then 0 else (n.log2 + 1022) * 0x10000000000000 + roundedSignificand n

theorem halveRounded_le (n k : Nat) : halveRounded n k ≤ n / Nat.pow 2 k + 1 := by
  unfold halveRounded; dsimp only; split <;> omega

theorem roundedSignificand_le (n : Nat) : roundedSignificand n ≤ 0x20000000000000 := by
  unfold roundedSignificand
  by_cases hn : n = 0
  · subst hn; decide
  have hlt : n < 2 ^ (n.log2 + 1) := Nat.lt_log2_self
  split
  · rename_i h
    calc n * 2 ^ (52 - n.log2) ≤ 2 ^ (n.log2 + 1) * 2 ^ (52 - n.log2) :=
          Nat.mul_le_mul_right _ (Nat.le_of_lt hlt)
      _ = 2 ^ (52 + 1) := by rw [← Nat.pow_add]; congr 1; omega
  · rename_i h
    have hdiv : n / Nat.pow 2 (n.log2 - 52) < 2 ^ (52 + 1) := by
      rw [Nat.pow_eq, Nat.div_lt_iff_lt_mul (Nat.two_pow_pos _), ← Nat.pow_add]
      have : 52 + 1 + (n.log2 - 52) = n.log2 + 1 := by omega
      rwa [this]
    have := halveRounded_le n (n.log2 - 52)
    omega

theorem natBits_lt {n : Nat} (h : n < UInt64.size) : natBits n < 0x4400000000000000 := by
  unfold natBits
  split
  · decide
  · have hlog : n.log2 < 64 := (Nat.log2_lt ‹_›).mpr h
    have hm := roundedSignificand_le n
    omega

def ofUInt64 (n : UInt64) : Double :=
  ⟨UInt64.ofNat (natBits n.toNat), by
    have h := natBits_lt n.toNat_lt
    have hmod : natBits n.toNat % 2 ^ 64 = natBits n.toNat := Nat.mod_eq_of_lt (by omega)
    rw [UInt64.toNat_ofNat', hmod]
    omega⟩

end Double

end PagedQuery
