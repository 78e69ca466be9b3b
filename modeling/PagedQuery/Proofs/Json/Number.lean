import Mathlib.Algebra.Order.Field.Rat
import Mathlib.Tactic.FieldSimp
import Mathlib.Tactic.Linarith
import Mathlib.Tactic.Ring
import PagedQuery.Json.Number

/-!
# What numbers stand for

A number of a JSON value stands for a rational number. The double that is nearest to a
whole number has the rounded significand of the number, moved to the number's leading
bit; a carry out of the significand moves the exponent on and changes nothing in that.
So it stands for the number itself exactly when rounding cuts nothing off.
-/
namespace PagedQuery

namespace Double

/-- The number that a finite double stands for. -/
def value (x : Double) : ℚ :=
  (if x.isNegative then -1 else 1) * (x.significand * (2 : ℚ) ^ x.scale)

theorem halveRounded_mul_eq_iff (n k : ℕ) : halveRounded n k * 2 ^ k = n ↔ 2 ^ k ∣ n := by
  constructor
  · intro h
    exact ⟨_, h.symm.trans (Nat.mul_comm _ _)⟩
  · intro h
    have hrest : n % Nat.pow 2 k = 0 := Nat.mod_eq_zero_of_dvd h
    have hpos : 0 < Nat.pow 2 k := Nat.two_pow_pos k
    have hwhole : halveRounded n k = n / Nat.pow 2 k := by
      simp only [halveRounded, hrest]
      apply if_neg
      omega
    rw [hwhole]
    exact Nat.div_mul_cancel h

theorem le_halveRounded (n k : ℕ) : n / 2 ^ k ≤ halveRounded n k := by
  change n / Nat.pow 2 k ≤ _
  simp only [halveRounded]
  split
  · exact Nat.le_succ _
  · exact Nat.le_refl _

theorem le_roundedSignificand {n : ℕ} (hn : n ≠ 0) : 2 ^ 52 ≤ roundedSignificand n := by
  have hlog := Nat.log2_self_le hn
  unfold roundedSignificand
  split
  · rename_i hsmall
    calc 2 ^ 52 = 2 ^ n.log2 * 2 ^ (52 - n.log2) := by rw [← Nat.pow_add]; congr 1; omega
      _ ≤ n * 2 ^ (52 - n.log2) := Nat.mul_le_mul_right _ hlog
  · rename_i hlarge
    apply Nat.le_trans _ (le_halveRounded n (n.log2 - 52))
    rw [Nat.le_div_iff_mul_le (Nat.two_pow_pos _), ← Nat.pow_add]
    have hexponent : 52 + (n.log2 - 52) = n.log2 := by omega
    rwa [hexponent]

/-- Bits that are an exponent and a significand, which may fill one bit more than there is
place for. -/
theorem value_of_bits {x : Double} {exponent significand : ℕ}
    (hbits : x.bits.toNat = exponent * 2 ^ 52 + significand) (hlow : 2 ^ 52 ≤ significand)
    (hhigh : significand ≤ 2 ^ 53) (hexponent : exponent < 2046) :
    x.value = significand * (2 : ℚ) ^ ((exponent : ℤ) - 1074) := by
  have hsign : x.isNegative = false := by
    simp only [isNegative, hbits, decide_eq_false_iff_not]
    omega
  by_cases hcarry : significand = 2 ^ 53
  · have hexponentBits : x.exponentBits = exponent + 2 := by
      simp only [exponentBits, hbits, hcarry]
      omega
    have hfraction : x.fraction = 0 := by
      simp only [fraction, hbits, hcarry]
      omega
    have hscale : x.scale = (exponent : ℤ) - 1074 + 1 := by
      rw [scale, hexponentBits]
      omega
    rw [value, hsign, hscale, Double.significand, hexponentBits, hfraction, hcarry,
      zpow_add_one₀ two_ne_zero]
    push_cast
    ring
  · have hexponentBits : x.exponentBits = exponent + 1 := by
      simp only [exponentBits, hbits]
      omega
    have hsignificand : x.significand = significand := by
      rw [Double.significand, if_neg (by omega), fraction, hbits]
      omega
    have hscale : x.scale = (exponent : ℤ) - 1074 := by
      rw [scale, hexponentBits]
      omega
    rw [value, hsign, hscale, hsignificand]
    simp

/-- The double nearest to a whole number has the rounded significand at the leading bit. -/
theorem value_ofUInt64 {n : UInt64} (hn : n.toNat ≠ 0) :
    (ofUInt64 n).value = roundedSignificand n.toNat * (2 : ℚ) ^ ((n.toNat.log2 : ℤ) - 52) := by
  have hlog : n.toNat.log2 < 64 := (Nat.log2_lt hn).mpr n.toNat_lt
  have hbits : (ofUInt64 n).bits.toNat =
      (n.toNat.log2 + 1022) * 2 ^ 52 + roundedSignificand n.toNat := by
    have hlt := natBits_lt n.toNat_lt
    have hsize : natBits n.toNat < 2 ^ 64 := by omega
    change (UInt64.ofNat (natBits n.toNat)).toNat = _
    rw [UInt64.toNat_ofNat', Nat.mod_eq_of_lt hsize, natBits, if_neg hn]
    norm_num
  have hscale : ((n.toNat.log2 + 1022 : ℕ) : ℤ) - 1074 = n.toNat.log2 - 52 := by omega
  rw [value_of_bits hbits (le_roundedSignificand hn) (roundedSignificand_le _) (by omega), hscale]

/-- The double nearest to a whole number stands for it exactly when the number has no bits
behind those of a significand. -/
theorem value_ofUInt64_eq_iff {n : UInt64} (hn : 52 ≤ n.toNat.log2) :
    (ofUInt64 n).value = n.toNat ↔ 2 ^ (n.toNat.log2 - 52) ∣ n.toNat := by
  have hne : n.toNat ≠ 0 := by
    intro hzero
    rw [hzero] at hn
    exact absurd hn (by decide)
  obtain ⟨k, hk⟩ := Nat.exists_eq_add_of_le hn
  have hrounded : roundedSignificand n.toNat = halveRounded n.toNat k := by
    unfold roundedSignificand
    split
    · have hzero : k = 0 := by omega
      simp [hk, hzero, halveRounded, Nat.mod_one]
    · rw [hk, Nat.add_sub_cancel_left]
  have hscale : ((n.toNat.log2 : ℤ) - 52) = k := by omega
  rw [value_ofUInt64 hne, hscale, hrounded, zpow_natCast, hk, Nat.add_sub_cancel_left,
    ← halveRounded_mul_eq_iff]
  exact_mod_cast Iff.rfl

end Double

/-- The number that a number of a JSON value stands for. -/
def Number.value : Number → ℚ
  | integer n _ => n
  | double x => x.value

end PagedQuery
