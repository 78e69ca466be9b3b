import Mathlib.Data.List.DropRight
import Mathlib.Data.List.TakeWhile
import Mathlib.Tactic.Common
import PagedQuery.Text.Blank

/-!
# Trimming

What trimming takes away holds nothing but the characters it may take away, and
it takes nothing away behind a character that stays.
-/
namespace PagedQuery.Text

theorem trimEndBy_append_all (drop : Char → Bool) (t : Text) :
    ∃ u, t = trimEndBy drop t ++ u ∧ u.all drop = true := by
  refine ⟨(t.reverse.takeWhile drop).reverse, ?_, ?_⟩
  · rw [trimEndBy, ← List.reverse_append, List.takeWhile_append_dropWhile, List.reverse_reverse]
  · rw [List.all_reverse]
    exact List.all_takeWhile

theorem trimBy_eq_append_all (drop : Char → Bool) (t : Text) :
    ∃ u v, t = u ++ trimBy drop t ++ v ∧ u.all drop = true ∧ v.all drop = true := by
  obtain ⟨v, hv, hall⟩ := trimEndBy_append_all drop (t.dropWhile drop)
  refine ⟨t.takeWhile drop, v, ?_, List.all_takeWhile, hall⟩
  rw [List.append_assoc, trimBy, ← hv, List.takeWhile_append_dropWhile]

theorem trimEnd_append_blanks (t : Text) : ∃ u, t = trimEnd t ++ u ∧ u.all isBlank = true :=
  trimEndBy_append_all isBlank t

theorem trim_append_blanks (t : Text) :
    ∃ u v, t = u ++ trim t ++ v ∧ u.all isBlank = true ∧ v.all isBlank = true :=
  trimBy_eq_append_all isBlank t

theorem trim_length_le (t : Text) : (trim t).length ≤ t.length := by
  obtain ⟨u, v, ht, -⟩ := trim_append_blanks t
  have := congrArg List.length ht
  rw [List.length_append, List.length_append] at this
  omega

theorem trimEndBy_eq_self {drop : Char → Bool} {t : Text}
    (h : ∀ c, t.getLast? = some c → drop c = false) : trimEndBy drop t = t := by
  cases hr : t.reverse with
  | nil => simp [trimEndBy, List.reverse_eq_nil_iff.mp hr]
  | cons c u =>
    have hlast : t.getLast? = some c := by rw [List.getLast?_eq_head?_reverse, hr, List.head?_cons]
    rw [trimEndBy, hr, List.dropWhile_cons, h c hlast, ← hr]
    exact List.reverse_reverse t

/-- A text that trimming leaves alone begins and ends with a character that stays. -/
theorem dropWhile_isBlank_of_trim {t : Text} (h : trim t = t) : t.dropWhile isBlank = t := by
  have hle : t.length ≤ (t.dropWhile isBlank).length := by
    calc t.length = (trim t).length := by rw [h]
      _ ≤ (t.dropWhile isBlank).length := by
        have hpre : trim t <+: t.dropWhile isBlank := trimEndBy_prefix _ _
        exact hpre.length_le
  exact (List.dropWhile_suffix isBlank).eq_of_length_le hle

theorem trimEnd_of_trim {t : Text} (h : trim t = t) : trimEnd t = t := by
  have hd := dropWhile_isBlank_of_trim h
  rw [trim, trimBy, hd] at h
  exact h

theorem trimEndBy_append (drop : Char → Bool) (s : Text) {t : Text} (h : trimEndBy drop t ≠ []) :
    trimEndBy drop (s ++ t) = s ++ trimEndBy drop t := by
  have hr : t.reverse.dropWhile drop ≠ [] := by
    intro e
    exact h (by rw [trimEndBy, e, List.reverse_nil])
  rw [trimEndBy, List.reverse_append, List.dropWhile_append, trimEndBy]
  rw [if_neg (by simpa using hr), List.reverse_append, List.reverse_reverse]

theorem trimEnd_append (s : Text) {t : Text} (h : trimEnd t ≠ []) :
    trimEnd (s ++ t) = s ++ trimEnd t := trimEndBy_append isBlank s h

theorem trimEnd_trimEnd (t : Text) : trimEnd (trimEnd t) = trimEnd t :=
  List.rdropWhile_idempotent isBlank t

theorem trimEnd_ne_nil_of_head {c : Char} {t : Text} (h : isBlank c = false) :
    trimEnd (c :: t) ≠ [] := by
  obtain ⟨u, hu, hall⟩ := trimEnd_append_blanks (c :: t)
  intro e
  rw [e, List.nil_append] at hu
  rw [← hu, List.all_cons, h] at hall
  exact absurd hall (by simp)

theorem dropWhile_trimEnd (t : Text) :
    (trimEnd t).dropWhile isBlank = trimEnd (t.dropWhile isBlank) := by
  have ht := List.takeWhile_append_dropWhile (p := isBlank) (l := t)
  cases hd : t.dropWhile isBlank with
  | nil =>
    rw [hd, List.append_nil] at ht
    have hall : t.all isBlank = true := ht ▸ List.all_takeWhile
    obtain ⟨u, hu, -⟩ := trimEnd_append_blanks t
    have hleft : (trimEnd t).all isBlank = true := by
      rw [hu, List.all_append, Bool.and_eq_true] at hall
      exact hall.1
    rw [List.dropWhile_eq_nil_iff.mpr (List.all_eq_true.mp hleft)]
    rfl
  | cons c u =>
    have hc : isBlank c = false := by
      have h := List.head_dropWhile_not isBlank (l := t) (by rw [hd]; exact List.cons_ne_nil c u)
      simp only [hd, List.head_cons] at h
      exact h
    have hne := trimEnd_ne_nil_of_head (t := u) hc
    obtain ⟨v, hv, -⟩ := trimEnd_append_blanks (c :: u)
    rw [hd] at ht
    rw [← ht, trimEnd_append _ hne, List.dropWhile_append]
    rw [List.dropWhile_eq_nil_iff.mpr (List.all_eq_true.mp List.all_takeWhile)]
    obtain ⟨d, w, hw⟩ := List.exists_cons_of_ne_nil hne
    rw [hw, List.cons_append] at hv
    rw [hw, List.isEmpty_nil, if_pos rfl, List.dropWhile_cons, (List.cons.inj hv).1.symm, hc,
      if_neg (by simp)]

theorem trim_eq_trimEnd (t : Text) : trim t = trimEnd (t.dropWhile isBlank) := rfl

theorem trim_trimEnd (t : Text) : trim (trimEnd t) = trim t := by
  rw [trim_eq_trimEnd, dropWhile_trimEnd, trimEnd_trimEnd, ← trim_eq_trimEnd]

theorem trim_trim (t : Text) : trim (trim t) = trim t := by
  rw [trim_eq_trimEnd t, trim_trimEnd, trim_eq_trimEnd, List.dropWhile_idempotent (p := isBlank)]

/-- Trimming leaves the end of a text alone that ends in one that stays. -/
theorem trim_append {s t : Text} (hs : trim s ≠ []) (ht : trimEnd t ≠ []) (hend : trimEnd s = s) :
    trim (s ++ t) = trim s ++ trimEnd t := by
  have hne : s.dropWhile isBlank ≠ [] := by
    intro e
    exact hs (by rw [trim_eq_trimEnd, e]; rfl)
  have hdrop : (s ++ t).dropWhile isBlank = s.dropWhile isBlank ++ t := by
    rw [List.dropWhile_append, if_neg (by simpa using hne)]
  have hstart : trimEnd (s.dropWhile isBlank) = s.dropWhile isBlank := by
    rw [← dropWhile_trimEnd, hend]
  rw [trim_eq_trimEnd, hdrop, trimEnd_append _ ht, trim_eq_trimEnd, hstart]

end PagedQuery.Text
