import Mathlib.Tactic.Common
import PagedQuery.Placeholder
import PagedQuery.Proofs.Lexical.Seam

/-!
# Placeholders and numbers of joined texts

Placeholders are counted, and numbers looked for, text by text, when the first
text closes its quotes and the second does not go on with a number. A text is
neutral when it closes its quotes and has neither placeholders nor numbers of a
style; joining and trimming neutral texts gives neutral texts.
-/
namespace PagedQuery

namespace Quote

theorem closed_append_iff {s t : Text} (hs : Closed s) : Closed (s ++ t) ↔ Closed t := by
  rw [Closed, Quote.after_append, hs, Closed]

end Quote

namespace Placeholder

/-- The text does not go on with the digits or the second letter of a number. -/
def Breaks (t : Text) : Prop := ∀ c, t.head? = some c → c.isDigit = false ∧ c ≠ 'p'

/-- A character that neither quotes nor begins a placeholder of any style. -/
def isBland (c : Char) : Bool := !(['\'', '"', '`', '?', '$', '@', ':'].contains c)

theorem breaks_nil : Breaks [] := by
  intro c hc
  exact absurd hc (by simp)

theorem breaks_append {s : Text} (hs : s ≠ []) (h : Breaks s) (t : Text) : Breaks (s ++ t) := by
  intro c hc
  cases s with
  | nil => exact absurd rfl hs
  | cons d s => exact h c hc

theorem breaks_of_isBlank {t : Text} (h : t.all Text.isBlank = true) : Breaks t := by
  intro c hc
  have hb : Text.isBlank c = true :=
    List.all_eq_true.mp h c (List.mem_of_head? hc)
  constructor
  · by_contra hd
    rw [Bool.not_eq_false] at hd
    have hrange := Text.toNat_of_isDigit hd
    simp [Text.isBlank, Text.blankRanges] at hb
    omega
  · rintro rfl
    exact absurd hb (by decide)

/-- Where the folded text begins with a space no number goes on. -/
theorem breaks_of_fold {t : Text} (h : ∀ c, (Text.fold t).head? = some c → c = ' ') :
    Breaks t := by
  intro c hc
  have hs : Text.foldChar c = ' ' := h _ (by rw [Text.fold, List.head?_map, hc, Option.map_some])
  rw [Text.foldChar_eq_space_iff] at hs
  simp only [Text.isAsciiSpace, Bool.or_eq_true, decide_eq_true_eq] at hs
  rcases hs with (((rfl | rfl) | rfl) | rfl) | rfl <;> exact ⟨by decide, by decide⟩

theorem breaks_of_occurs {k t : Text} (hk : k ∈ Keyword.cuts) {i : Nat} (h : Text.Occurs k t i) :
    Breaks (t.drop i) := by
  refine breaks_of_fold fun c hc => ?_
  rw [← Text.fold_drop, List.head?_drop, h.getElem? hk] at hc
  exact (Option.some.inj hc).symm

theorem breaks_of_found {t : Text} {found : Option Nat}
    (h : ∀ i, found = some i → ∃ k ∈ Keyword.cuts, Text.Occurs k t i) :
    Breaks (t.drop (found.getD t.length)) := by
  cases found with
  | none =>
    rw [Option.getD_none, List.drop_length]
    exact breaks_nil
  | some i =>
    obtain ⟨k, hk, ho⟩ := h i rfl
    exact breaks_of_occurs hk ho

theorem breaks_of_first {ks : List Text} (hks : ∀ k ∈ ks, k ∈ Keyword.cuts) (start : Nat)
    (t : Text) : Breaks (t.drop ((Text.firstTopLevel? ks start t).getD t.length)) := by
  refine breaks_of_found fun i hi => ?_
  obtain ⟨k, hk, ho⟩ := (Text.firstTopLevel?_eq_some_iff.mp hi).1
  exact ⟨k, hks k hk, ho⟩

theorem breaks_of_topLevel? {k : Text} (hk : k ∈ Keyword.cuts) (start : Nat) (t : Text) :
    Breaks (t.drop ((Text.topLevel? k start t).getD t.length)) :=
  breaks_of_found fun _ hi => ⟨k, hk, Text.occurs_of_topLevel? hi⟩

theorem leadingNumber?_append {s t : Text} (ht : Breaks t) :
    leadingNumber? (s ++ t) = leadingNumber? s := by
  have htail : t.takeWhile Char.isDigit = [] := by
    cases t with
    | nil => rfl
    | cons c t => rw [List.takeWhile_cons, (ht c rfl).1, if_neg (by simp)]
  have htake : (s ++ t).takeWhile Char.isDigit = s.takeWhile Char.isDigit := by
    rw [List.takeWhile_append, htail]
    split
    · rename_i h
      rw [List.append_nil]
      exact ((List.takeWhile_prefix _).eq_of_length h).symm
    · rfl
  rw [leadingNumber?, leadingNumber?, htake]

def markers : List Text := [['$'], ['@', 'p'], [':']]

theorem mem_markers {style : PlaceholderStyle} {marker : Text} (h : style.marker? = some marker) :
    marker ∈ markers := by
  cases style <;> cases h <;> decide

theorem leadingToken?_append {marker : Text} (hm : marker ∈ markers) {c : Char} {s t : Text}
    (ht : Breaks t) : leadingToken? marker (c :: s ++ t) = leadingToken? marker (c :: s) := by
  have hone : ∀ m : Char, leadingToken? [m] (c :: s ++ t) = leadingToken? [m] (c :: s) := by
    intro m
    have hd : (c :: (s ++ t)).drop [m].length = s ++ t := rfl
    have hd' : (c :: s).drop [m].length = s := rfl
    simp only [leadingToken?, List.cons_append, List.isPrefixOf, Bool.and_true, hd, hd',
      leadingNumber?_append ht]
  simp only [markers, List.mem_cons, List.not_mem_nil, or_false] at hm
  rcases hm with rfl | rfl | rfl
  · exact hone '$'
  · cases s with
    | nil =>
      cases t with
      | nil => rfl
      | cons d t =>
        have hp : ('p' == d) = false := beq_eq_false_iff_ne.mpr (fun e => (ht d rfl).2 e.symm)
        simp only [leadingToken?, List.cons_append, List.nil_append, List.isPrefixOf, hp,
          Bool.false_and, Bool.and_false, Bool.false_eq_true, if_false]
    | cons d s =>
      have hd : (c :: d :: (s ++ t)).drop ['@', 'p'].length = s ++ t := rfl
      have hd' : (c :: d :: s).drop ['@', 'p'].length = s := rfl
      simp only [leadingToken?, List.cons_append, List.isPrefixOf, Bool.and_true, hd, hd',
        leadingNumber?_append ht]
  · exact hone ':'

theorem max_assoc (a b c : UInt64) : max a (max b c) = max (max a b) c := by
  rw [← UInt64.toNat_inj, UInt64.toNat_max, UInt64.toNat_max, UInt64.toNat_max, UInt64.toNat_max]
  omega

theorem max_comm (a b : UInt64) : max a b = max b a := by
  rw [← UInt64.toNat_inj, UInt64.toNat_max, UInt64.toNat_max]
  omega

theorem zero_max (a : UInt64) : max 0 a = a := by
  rw [← UInt64.toNat_inj, UInt64.toNat_max, UInt64.toNat_zero]
  omega

theorem max_eq_zero_iff {a b : UInt64} : max a b = 0 ↔ a = 0 ∧ b = 0 := by
  simp only [← UInt64.toNat_inj, UInt64.toNat_max, UInt64.toNat_zero]
  omega

/-- The highest number is the higher one of two texts, if no number goes on from one into the
other. -/
theorem highestFrom_append {marker : Text} (hm : marker ∈ markers) {q : Quote} {s t : Text}
    (ht : Breaks t) :
    highestFrom marker q (s ++ t) =
      max (highestFrom marker q s) (highestFrom marker (q.after s) t) := by
  induction s generalizing q with
  | nil => exact (zero_max _).symm
  | cons c s ih =>
    have hhere := leadingToken?_append hm (c := c) (s := s) ht
    rw [List.cons_append] at hhere ⊢
    simp only [highestFrom, hhere, ih, Quote.after_cons, max_assoc]

theorem highest_append {style : PlaceholderStyle} {s t : Text} (hs : Quote.Closed s)
    (ht : Breaks t) : highest style (s ++ t) = max (highest style s) (highest style t) := by
  cases hm : style.marker? with
  | none =>
    simp only [highest, hm]
    exact (zero_max 0).symm
  | some marker =>
    simp only [highest, hm, highestFrom_append (mem_markers hm) ht]
    rw [show Quote.after .outside s = .outside from hs]

theorem highest_append_eq_zero_iff {style : PlaceholderStyle} {s t : Text} (hs : Quote.Closed s)
    (ht : Breaks t) : highest style (s ++ t) = 0 ↔ highest style s = 0 ∧ highest style t = 0 := by
  rw [highest_append hs ht, max_eq_zero_iff]

theorem step_of_isBland {c : Char} (h : isBland c = true) (q : Quote) : q.step c = q := by
  have hc : c ∉ ['\'', '"', '`', '?', '$', '@', ':'] := by simpa [isBland] using h
  simp only [List.mem_cons, List.not_mem_nil, or_false, not_or] at hc
  cases q with
  | outside =>
    simp only [Quote.step]
    unfold Quote.ofMark
    split <;> simp_all
  | single => simp [Quote.step, Quote.mark?, eq_comm, hc.1]
  | double => simp [Quote.step, Quote.mark?, eq_comm, hc.2.1]
  | back => simp [Quote.step, Quote.mark?, eq_comm, hc.2.2.1]

theorem after_of_isBland {t : Text} (h : t.all isBland = true) (q : Quote) : q.after t = q := by
  induction t with
  | nil => rfl
  | cons c t ih =>
    simp only [List.all_cons, Bool.and_eq_true] at h
    rw [Quote.after_cons, step_of_isBland h.1, ih h.2]

theorem leadingToken?_of_isBland {marker : Text} (hm : marker ∈ markers) {c : Char}
    (h : isBland c = true) (t : Text) : leadingToken? marker (c :: t) = none := by
  have hc : c ∉ ['\'', '"', '`', '?', '$', '@', ':'] := by simpa [isBland] using h
  simp only [List.mem_cons, List.not_mem_nil, or_false, not_or] at hc
  simp only [markers, List.mem_cons, List.not_mem_nil, or_false] at hm
  rcases hm with rfl | rfl | rfl <;>
    simp [leadingToken?, List.isPrefixOf, Ne.symm hc.2.2.2.2.1, Ne.symm hc.2.2.2.2.2.1,
      Ne.symm hc.2.2.2.2.2.2]

/-- Bland text in front of a text does not change its numbers. -/
theorem highestFrom_of_isBland {marker : Text} (hm : marker ∈ markers) {q : Quote} {s t : Text}
    (hs : s.all isBland = true) : highestFrom marker q (s ++ t) = highestFrom marker q t := by
  induction s with
  | nil => rfl
  | cons c s ih =>
    simp only [List.all_cons, Bool.and_eq_true] at hs
    rw [List.cons_append, highestFrom, leadingToken?_of_isBland hm hs.1, ite_self,
      step_of_isBland hs.1, ih hs.2]
    exact zero_max _

theorem highest_of_isBland {style : PlaceholderStyle} {s : Text} (hs : s.all isBland = true)
    (t : Text) : highest style (s ++ t) = highest style t := by
  cases hm : style.marker? with
  | none => simp [highest, hm]
  | some marker =>
    simp only [highest, hm]
    exact highestFrom_of_isBland (mem_markers hm) hs

/-- A character that can be trimmed off, or stand where a number ends. -/
def isSpacer (c : Char) : Bool := isBland c && !c.isDigit && c != 'p'

theorem isSpacer_of_isBlank {c : Char} (h : Text.isBlank c = true) : isSpacer c = true := by
  have hb := breaks_of_isBlank (t := [c]) (by simp [h]) c rfl
  have hbland : isBland c = true := by
    by_cases hm : c ∈ ['\'', '"', '`', '?', '$', '@', ':']
    · simp only [List.mem_cons, List.not_mem_nil, or_false] at hm
      rcases hm with rfl | rfl | rfl | rfl | rfl | rfl | rfl <;> exact absurd h (by decide)
    · simpa [isBland] using hm
  simp [isSpacer, hb.1, hb.2, hbland]

theorem breaks_of_head? {t : Text} (h : t.head?.all isSpacer = true) : Breaks t := by
  intro c hc
  rw [hc, Option.all_some] at h
  simp only [isSpacer, Bool.and_eq_true, Bool.not_eq_true', bne_iff_ne] at h
  exact ⟨h.1.2, h.2⟩

theorem breaks_of_isSpacer {t : Text} (h : t.all isSpacer = true) : Breaks t := by
  refine breaks_of_head? (Option.all_eq_true_iff_get _ _ |>.mpr fun hs => ?_)
  exact List.all_eq_true.mp h _ (List.mem_of_head? (Option.some_get hs).symm)

theorem isBland_of_isSpacer {t : Text} (h : t.all isSpacer = true) : t.all isBland = true := by
  refine List.all_eq_true.mpr fun c hc => ?_
  have hs := List.all_eq_true.mp h c hc
  simp only [isSpacer, Bool.and_eq_true] at hs
  exact hs.1.1

theorem isBland_of_isDigit {c : Char} (h : c.isDigit = true) : isBland c = true := by
  by_cases hm : c ∈ ['\'', '"', '`', '?', '$', '@', ':']
  · simp only [List.mem_cons, List.not_mem_nil, or_false] at hm
    rcases hm with rfl | rfl | rfl | rfl | rfl | rfl | rfl <;> exact absurd h (by decide)
  · simpa [isBland] using hm

theorem isBland_ofNat (n : Nat) : (Text.ofNat n).all isBland = true :=
  List.all_eq_true.mpr fun _ hc =>
    isBland_of_isDigit (Nat.isDigit_of_mem_toDigits (by decide) (by decide) hc)

end Placeholder

end PagedQuery
