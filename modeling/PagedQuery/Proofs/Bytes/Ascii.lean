import Mathlib.Tactic.Common
import PagedQuery.Text.Utf8

/-!
# ASCII characters among bytes

An ASCII character is one byte, and no byte of another character is one of those. So
an ASCII text begins another text, or has its leading spaces, where its bytes do.
-/
namespace PagedQuery.Text

def IsAscii (t : Text) : Prop := ∀ c ∈ t, c.toNat < 128

instance (t : Text) : Decidable (IsAscii t) := List.decidableBAll (fun c : Char => c.toNat < 128) t

variable {k : Text} {c d : Char}

theorem utf8_cons (c : Char) (t : Text) : utf8 (c :: t) = String.utf8EncodeChar c ++ utf8 t := rfl

theorem utf8Size_ascii (h : c.toNat < 128) : c.utf8Size = 1 := by
  have hv : c.val.toNat < 128 := h
  rw [Char.utf8Size_eq_one_iff, UInt32.le_iff_toNat_le]
  simp
  omega

theorem utf8EncodeChar_ascii (h : c.toNat < 128) : String.utf8EncodeChar c = [c.toUInt8] :=
  String.utf8EncodeChar_eq_singleton (utf8Size_ascii h)

/-- No byte of another character is one of an ASCII character. -/
theorem le_of_mem_utf8EncodeChar (h : 128 ≤ c.toNat) {b : UInt8}
    (hb : b ∈ String.utf8EncodeChar c) : 128 ≤ b.toNat := by
  have hv : 128 ≤ c.val.toNat := h
  have hmax := c.val.toNat_lt
  simp only [String.utf8EncodeChar] at hb
  split at hb
  · omega
  · split at hb
    · simp only [List.mem_cons, List.not_mem_nil, or_false] at hb
      rcases hb with rfl | rfl <;> simp <;> omega
    · split at hb
      · simp only [List.mem_cons, List.not_mem_nil, or_false] at hb
        rcases hb with rfl | rfl | rfl <;> simp <;> omega
      · simp only [List.mem_cons, List.not_mem_nil, or_false] at hb
        rcases hb with rfl | rfl | rfl | rfl <;> simp <;> omega

/-- The byte is none that begins a character. -/
def Following (b : UInt8) : Prop := 128 ≤ b.toNat ∧ b.toNat < 192

/-- The first byte of a character begins one, and the others do not. -/
theorem exists_first_byte (c : Char) : ∃ first following,
    String.utf8EncodeChar c = first :: following ∧ ¬Following first ∧
      ∀ b ∈ following, Following b := by
  have hmax : c.val.toNat < 0x110000 := by
    rcases c.valid with hc | ⟨-, hc⟩
    · exact Nat.lt_trans hc (by decide)
    · exact hc
  simp only [String.utf8EncodeChar, Following]
  split_ifs
  all_goals
    refine ⟨_, _, rfl, ?_, ?_⟩
    · simp only [UInt8.toNat_ofNat']
      omega
    · simp only [List.forall_mem_cons, List.not_mem_nil, false_implies, implies_true, and_true,
        UInt8.toNat_ofNat'] <;> omega

theorem toNat_toUInt8 (h : c.toNat < 128) : c.toUInt8.toNat = c.toNat := by
  have hv : c.val.toNat < 128 := h
  rw [Char.toUInt8, UInt32.toNat_toUInt8, Nat.mod_eq_of_lt (by omega)]
  rfl

theorem toUInt8_inj (hc : c.toNat < 128) (hd : d.toNat < 128) : c.toUInt8 = d.toUInt8 ↔ c = d := by
  rw [← UInt8.toNat_inj, toNat_toUInt8 hc, toNat_toUInt8 hd, Char.toNat_inj]

/-- An ASCII character does not begin where another one does. -/
theorem isPrefixOf_of_le {b : UInt8} (hc : c.toNat < 128) (hb : 128 ≤ b.toNat)
    (s rest : List UInt8) : (c.toUInt8 :: s).isPrefixOf (b :: rest) = false := by
  have hne : c.toUInt8 ≠ b := by
    rintro rfl
    rw [toNat_toUInt8 hc] at hb
    omega
  rw [List.isPrefixOf_cons_cons, beq_eq_false_iff_ne.mpr hne, Bool.false_and]

theorem IsAscii.isPrefixOf_utf8 (hk : IsAscii k) (t : Text) :
    (utf8 k).isPrefixOf (utf8 t) = k.isPrefixOf t := by
  induction k generalizing t with
  | nil => simp
  | cons a k ih =>
    have ha : a.toNat < 128 := hk a (by simp)
    cases t with
    | nil => simp [utf8_cons, utf8EncodeChar_ascii ha]
    | cons c t =>
      rw [utf8_cons, utf8EncodeChar_ascii ha, utf8_cons, List.singleton_append]
      by_cases hc : c.toNat < 128
      · rw [utf8EncodeChar_ascii hc, List.singleton_append, List.isPrefixOf_cons_cons,
          List.isPrefixOf_cons_cons, ih fun d hd => hk d (by simp [hd])]
        simp [Bool.beq_eq_decide_eq, toUInt8_inj ha hc]
      · obtain ⟨b, bytes, hbytes⟩ := List.exists_cons_of_ne_nil String.utf8EncodeChar_ne_nil
        have hb : 128 ≤ b.toNat :=
          le_of_mem_utf8EncodeChar (Nat.le_of_not_lt hc) (by rw [hbytes]; simp)
        have hac : a ≠ c := by
          rintro rfl
          exact hc ha
        rw [hbytes, List.cons_append, isPrefixOf_of_le ha hb, List.isPrefixOf_cons_cons,
          beq_eq_false_iff_ne.mpr hac, Bool.false_and]

theorem dropWhile_utf8 (t : Text) :
    (utf8 t).dropWhile (· = ' '.toUInt8) = utf8 (t.dropWhile (· = ' ')) := by
  induction t with
  | nil => rfl
  | cons c t ih =>
    by_cases hc : c.toNat < 128
    · have heq := toUInt8_inj hc (show ' '.toNat < 128 by decide)
      rw [utf8_cons, utf8EncodeChar_ascii hc, List.singleton_append, List.dropWhile_cons,
        List.dropWhile_cons]
      by_cases hspace : c = ' '
      · simp [hspace, ih]
      · simp [hspace, heq, utf8_cons, utf8EncodeChar_ascii hc]
    · obtain ⟨b, bytes, henc⟩ := List.exists_cons_of_ne_nil String.utf8EncodeChar_ne_nil
      have hb : 128 ≤ b.toNat :=
        le_of_mem_utf8EncodeChar (Nat.le_of_not_lt hc) (by rw [henc]; simp)
      have hne : b ≠ ' '.toUInt8 := by
        rintro rfl
        exact absurd hb (by decide)
      have hspace : c ≠ ' ' := by
        rintro rfl
        exact hc (by decide)
      rw [List.dropWhile_cons_of_neg (by simpa using hspace), utf8_cons, henc, List.cons_append,
        List.dropWhile_cons_of_neg (by simpa using hne)]

end PagedQuery.Text
