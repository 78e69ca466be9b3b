import Mathlib.Data.List.Lex
import PagedQuery.Proofs.Bytes.Ascii

/-!
# Order by bytes

Texts stand in the order of their code points as their bytes stand in the order of
bytes. A first byte tells how many bytes follow and is greater the more there are, and
the bytes of a character are digits of its code point, the greatest one first. So the
bytes of different characters differ, whatever follows, and a text begins another one
where its bytes do.
-/
namespace PagedQuery.Text

variable {c d : Char} {s t : Text}

/-- The bytes of the first text stand before those of the second in the order of bytes. -/
def BytesBefore (s t : Text) : Prop := List.Lex (· < ·) (utf8 s) (utf8 t)

instance (s t : Text) : Decidable (BytesBefore s t) := List.Lex.decidableRel _ _ _

theorem div_lt_or_mod_lt {m n : Nat} (h : m < n) :
    m / 64 < n / 64 ∨ m / 64 = n / 64 ∧ m % 64 < n % 64 := by omega

/-- The first byte in which two characters differ is the smaller one of the smaller character,
whatever follows them. -/
theorem lex_utf8EncodeChar (h : c.toNat < d.toNat) (rest others : List UInt8) :
    List.Lex (· < ·) (String.utf8EncodeChar c ++ rest) (String.utf8EncodeChar d ++ others) := by
  have hlt : c.val.toNat < d.val.toNat := h
  have hmax : d.val.toNat < 0x110000 := by
    rcases d.valid with hd | ⟨-, hd⟩
    · exact Nat.lt_trans hd (by decide)
    · exact hd
  generalize hm : c.val.toNat = m at hlt
  generalize hn : d.val.toNat = n at hlt hmax
  have hfollowing : ∀ k, (k % 64 + 128) % 2 ^ 8 = k % 64 + 128 := by omega
  have hsecond : ∀ k, (k % 32 + 192) % 2 ^ 8 = k % 32 + 192 := by omega
  have hthird : ∀ k, (k % 16 + 224) % 2 ^ 8 = k % 16 + 224 := by omega
  have hfourth : ∀ k, (k % 8 + 240) % 2 ^ 8 = k % 8 + 240 := by omega
  have htwo : ∀ k, k / 4096 = k / 64 / 64 := fun k => (Nat.div_div_eq_div_mul k 64 64).symm
  have hthree : ∀ k, k / 262144 = k / 64 / 64 / 64 := by
    intro k
    rw [Nat.div_div_eq_div_mul, Nat.div_div_eq_div_mul]
  have hlast := div_lt_or_mod_lt hlt
  have hmiddle := fun h => div_lt_or_mod_lt (m := m / 64) (n := n / 64) h
  have hfront := fun h => div_lt_or_mod_lt (m := m / 64 / 64) (n := n / 64 / 64) h
  simp only [String.utf8EncodeChar, hm, hn]
  split_ifs
  all_goals
    simp only [List.cons_append, List.nil_append, List.cons_lex_cons_iff, UInt8.lt_iff_toNat_lt,
      ← UInt8.toNat_inj, UInt8.toNat_ofNat', hfollowing, hsecond, hthird, hfourth, htwo, hthree]
    omega

/-- Texts are in the order of their code points exactly when their bytes are in the order of bytes. -/
theorem before_iff_bytesBefore : before s t = true ↔ BytesBefore s t := by
  have hforward : ∀ {s t : Text}, before s t = true → BytesBefore s t := by
    intro s t h
    induction s generalizing t with
    | nil =>
      cases t with
      | nil => exact absurd h (by decide)
      | cons d t =>
        obtain ⟨b, bytes, hbytes⟩ := List.exists_cons_of_ne_nil String.utf8EncodeChar_ne_nil
        rw [BytesBefore, utf8_cons, hbytes, List.cons_append]
        exact .nil
    | cons c s ih =>
      cases t with
      | nil => exact absurd h (by simp [before])
      | cons d t =>
        rw [BytesBefore, utf8_cons, utf8_cons]
        rw [before] at h
        by_cases hcd : c = d
        · subst hcd
          rw [if_pos rfl] at h
          exact List.Lex.append_left _ (ih h) _
        · rw [if_neg hcd, decide_eq_true_eq] at h
          exact lex_utf8EncodeChar h _ _
  refine ⟨hforward, fun h => ?_⟩
  by_contra hnot
  rw [Bool.not_eq_true] at hnot
  by_cases hst : s = t
  · subst hst
    exact List.lex_irrefl (fun b => UInt8.lt_irrefl b) _ h
  · exact List.lex_asymm (fun h => UInt8.lt_asymm h) h (hforward (before_of_ne hst hnot))

theorem eq_of_utf8EncodeChar_append {rest others : List UInt8}
    (h : String.utf8EncodeChar c ++ rest = String.utf8EncodeChar d ++ others) : c = d := by
  have hirrefl := fun bytes : List UInt8 => List.lex_irrefl (fun b => UInt8.lt_irrefl b) bytes
  rcases Nat.lt_trichotomy c.toNat d.toNat with hlt | heq | hgt
  · have hlex := lex_utf8EncodeChar hlt rest others
    rw [h] at hlex
    exact absurd hlex (hirrefl _)
  · exact Char.toNat_inj.mp heq
  · have hlex := lex_utf8EncodeChar hgt others rest
    rw [h] at hlex
    exact absurd hlex (hirrefl _)

theorem utf8_prefix_iff : utf8 s <+: utf8 t ↔ s <+: t := by
  induction s generalizing t with
  | nil => simp
  | cons c s ih =>
    cases t with
    | nil =>
      rw [utf8_cons, utf8_nil, List.prefix_nil, List.prefix_nil]
      simp
    | cons d t =>
      rw [utf8_cons, utf8_cons, List.cons_prefix_cons]
      constructor
      · rintro ⟨rest, hrest⟩
        rw [List.append_assoc] at hrest
        obtain rfl := eq_of_utf8EncodeChar_append hrest
        exact ⟨rfl, ih.mp ⟨rest, List.append_cancel_left hrest⟩⟩
      · rintro ⟨rfl, hprefix⟩
        exact (List.prefix_append_right_inj _).mpr (ih.mpr hprefix)

end PagedQuery.Text
