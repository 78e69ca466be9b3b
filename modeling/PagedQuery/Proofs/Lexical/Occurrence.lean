import Mathlib.Tactic.Common
import PagedQuery.Proofs.Lexical.Closed
import PagedQuery.Statement.Clauses

/-!
# Occurrences of keywords

A keyword occurs at a position when the folded text continues with it there,
outside quotes and parentheses. The search for a keyword finds the first
occurrence, the search for several the first of any of them. Occurrences behind
a closed text are those of the rest, and a text in front of a clause that begins
with a space holds only occurrences that one space behind it would show.
-/
namespace PagedQuery.Text

/-- The folded text, read from the place `p`, continues with the keyword at position `i`. -/
def OccursFrom (keyword : Text) (p : Place) (t : Text) (i : Nat) : Prop :=
  i < t.length ∧ (p.after (t.take i)).IsTop ∧ keyword <+: t.drop i

/-- The keyword begins at position `i` of the text, outside quotes and parentheses. -/
def Occurs (keyword t : Text) (i : Nat) : Prop :=
  i < t.length ∧ Place.after .start (t.take i) = .start ∧ keyword <+: (fold t).drop i

theorem fold_take (t : Text) (i : Nat) : (fold t).take i = fold (t.take i) := by
  simp only [fold, List.map_take]

theorem fold_drop (t : Text) (i : Nat) : (fold t).drop i = fold (t.drop i) := by
  simp only [fold, List.map_drop]

theorem occursFrom_start_fold {keyword t : Text} {i : Nat} :
    OccursFrom keyword .start (fold t) i ↔ Occurs keyword t i := by
  unfold OccursFrom Occurs
  rw [fold_length, fold_take, Place.after_fold]
  constructor
  · rintro ⟨hl, ht, hk⟩
    exact ⟨hl, ht.eq_start, hk⟩
  · rintro ⟨hl, ht, hk⟩
    refine ⟨hl, ?_, hk⟩
    rw [ht]
    exact Place.start_isTop

theorem occursFrom_zero {keyword : Text} {p : Place} {c : Char} {t : Text} :
    OccursFrom keyword p (c :: t) 0 ↔ p.IsTop ∧ keyword <+: c :: t := by
  simp [OccursFrom]

theorem occursFrom_succ {keyword : Text} {p : Place} {c : Char} {t : Text} {i : Nat} :
    OccursFrom keyword p (c :: t) (i + 1) ↔ OccursFrom keyword (p.step c) t i := by
  simp [OccursFrom]

theorem topLevelFrom?_eq_none_iff {keyword : Text} {p : Place} {skip : Nat} {t : Text} :
    topLevelFrom? keyword p skip t = none ↔ ∀ i, skip ≤ i → ¬OccursFrom keyword p t i := by
  induction t generalizing p skip with
  | nil => simp [topLevelFrom?, OccursFrom]
  | cons c t ih =>
    rw [topLevelFrom?]
    split
    · rename_i h
      refine ⟨fun h' => absurd h' (by simp), fun h' => absurd ?_ (h' 0 (Nat.le_of_eq h.1))⟩
      exact occursFrom_zero.mpr ⟨h.2.1, List.isPrefixOf_iff_prefix.mp h.2.2⟩
    · rename_i h
      rw [Option.map_eq_none_iff, ih]
      constructor
      · intro hi i hs
        cases i with
        | zero =>
          rw [occursFrom_zero]
          rintro ⟨ht, hk⟩
          exact h ⟨Nat.le_zero.mp hs, ht, List.isPrefixOf_iff_prefix.mpr hk⟩
        | succ i =>
          rw [occursFrom_succ]
          exact hi i (by omega)
      · intro hi i hs
        have := hi (i + 1) (by omega)
        rwa [occursFrom_succ] at this

theorem topLevelFrom?_eq_some_iff {keyword : Text} {p : Place} {skip : Nat} {t : Text} {i : Nat} :
    topLevelFrom? keyword p skip t = some i ↔
      OccursFrom keyword p t i ∧ skip ≤ i ∧ ∀ j, skip ≤ j → j < i → ¬OccursFrom keyword p t j := by
  induction t generalizing p skip i with
  | nil => simp [topLevelFrom?, OccursFrom]
  | cons c t ih =>
    rw [topLevelFrom?]
    split
    · rename_i h
      have hz : OccursFrom keyword p (c :: t) 0 :=
        occursFrom_zero.mpr ⟨h.2.1, List.isPrefixOf_iff_prefix.mp h.2.2⟩
      rw [Option.some.injEq]
      constructor
      · rintro rfl
        exact ⟨hz, Nat.le_of_eq h.1, fun j _ hj => absurd hj (Nat.not_lt_zero j)⟩
      · rintro ⟨-, -, hfirst⟩
        by_contra hne
        exact hfirst 0 (Nat.le_of_eq h.1) (by omega) hz
    · rename_i h
      cases i with
      | zero =>
        constructor
        · intro h'
          obtain ⟨j, -, hj⟩ := Option.map_eq_some_iff.mp h'
          exact absurd hj (Nat.succ_ne_zero j)
        · rintro ⟨hz, hs, -⟩
          rw [occursFrom_zero] at hz
          exact absurd ⟨Nat.le_zero.mp hs, hz.1, List.isPrefixOf_iff_prefix.mpr hz.2⟩ h
      | succ i =>
        have hmap : (topLevelFrom? keyword (p.step c) (skip - 1) t).map (· + 1) = some (i + 1) ↔
            topLevelFrom? keyword (p.step c) (skip - 1) t = some i := by simp
        rw [hmap, ih, occursFrom_succ]
        constructor
        · rintro ⟨ho, hs, hfirst⟩
          refine ⟨ho, by omega, fun j hj hji => ?_⟩
          cases j with
          | zero =>
            rw [occursFrom_zero]
            rintro ⟨ht, hk⟩
            exact h ⟨Nat.le_zero.mp hj, ht, List.isPrefixOf_iff_prefix.mpr hk⟩
          | succ j =>
            rw [occursFrom_succ]
            exact hfirst j (by omega) (by omega)
        · rintro ⟨ho, hs, hfirst⟩
          refine ⟨ho, by omega, fun j hj hji => ?_⟩
          have := hfirst (j + 1) (by omega) (by omega)
          rwa [occursFrom_succ] at this

theorem topLevel?_eq_none_iff {keyword : Text} {start : Nat} {t : Text} :
    topLevel? keyword start t = none ↔ ∀ i, start ≤ i → ¬Occurs keyword t i := by
  simp only [topLevel?, topLevelFrom?_eq_none_iff, occursFrom_start_fold]

theorem topLevel?_eq_some_iff {keyword : Text} {start : Nat} {t : Text} {i : Nat} :
    topLevel? keyword start t = some i ↔
      Occurs keyword t i ∧ start ≤ i ∧ ∀ j, start ≤ j → j < i → ¬Occurs keyword t j := by
  simp only [topLevel?, topLevelFrom?_eq_some_iff, occursFrom_start_fold]

theorem occurs_of_topLevel? {keyword : Text} {start : Nat} {t : Text} {i : Nat}
    (h : topLevel? keyword start t = some i) : Occurs keyword t i := (topLevel?_eq_some_iff.mp h).1

theorem firstTopLevel?_eq_none_iff {keywords : List Text} {start : Nat} {t : Text} :
    firstTopLevel? keywords start t = none ↔
      ∀ k ∈ keywords, ∀ i, start ≤ i → ¬Occurs k t i := by
  simp only [firstTopLevel?, List.min?_eq_none_iff, List.filterMap_eq_nil_iff,
    topLevel?_eq_none_iff]

/-- The search for several keywords finds the first occurrence of any of them. -/
theorem firstTopLevel?_eq_some_iff {keywords : List Text} {start : Nat} {t : Text} {i : Nat} :
    firstTopLevel? keywords start t = some i ↔
      (∃ k ∈ keywords, Occurs k t i) ∧ start ≤ i ∧
        ∀ k ∈ keywords, ∀ j, start ≤ j → j < i → ¬Occurs k t j := by
  rw [firstTopLevel?, List.min?_eq_some_iff]
  simp only [List.mem_filterMap]
  constructor
  · rintro ⟨⟨k, hk, hi⟩, hmin⟩
    have hi' := topLevel?_eq_some_iff.mp hi
    refine ⟨⟨k, hk, hi'.1⟩, hi'.2.1, ?_⟩
    intro k' hk' j hj hji ho
    cases hf : topLevel? k' start t with
    | none => exact topLevel?_eq_none_iff.mp hf j hj ho
    | some m =>
      have hm := topLevel?_eq_some_iff.mp hf
      have him := hmin m ⟨k', hk', hf⟩
      exact hm.2.2 j hj (by omega) ho
  · rintro ⟨⟨k, hk, hi⟩, hs, hfirst⟩
    refine ⟨⟨k, hk, topLevel?_eq_some_iff.mpr ⟨hi, hs, hfirst k hk⟩⟩, ?_⟩
    rintro m ⟨k', hk', hf⟩
    have hm := topLevel?_eq_some_iff.mp hf
    by_contra hlt
    exact hfirst k' hk' m hm.2.1 (by omega) hm.1

theorem hasTopLevel_eq_false_iff {keywords : List Text} {start : Nat} {t : Text} :
    hasTopLevel keywords start t = false ↔ ∀ k ∈ keywords, ∀ i, start ≤ i → ¬Occurs k t i := by
  rw [hasTopLevel, Option.isSome_eq_false_iff, Option.isNone_iff_eq_none,
    firstTopLevel?_eq_none_iff]

theorem hasTopLevel_eq_true_iff {keywords : List Text} {start : Nat} {t : Text} :
    hasTopLevel keywords start t = true ↔ ∃ k ∈ keywords, ∃ i, start ≤ i ∧ Occurs k t i := by
  rw [← Bool.not_eq_false, hasTopLevel_eq_false_iff]
  push Not
  rfl

theorem occurs_append_right {keyword s t : Text} (hs : Place.after .start s = .start) {i : Nat} :
    Occurs keyword (s ++ t) (s.length + i) ↔ Occurs keyword t i := by
  have ht : (s ++ t).take (s.length + i) = s ++ t.take i := List.take_length_add_append i
  have hd : (s ++ t).drop (s.length + i) = t.drop i := List.drop_length_add_append i
  unfold Occurs
  rw [ht, fold_drop, hd, ← fold_drop, Place.after_append, hs, List.length_append]
  constructor
  · rintro ⟨hl, h⟩
    exact ⟨by omega, h⟩
  · rintro ⟨hl, h⟩
    exact ⟨by omega, h⟩

theorem Occurs.length_le {keyword t : Text} {i : Nat} (h : Occurs keyword t i) :
    i + keyword.length ≤ t.length := by
  have hlen := h.2.2.length_le
  have := h.1
  rw [List.length_drop, fold_length] at hlen
  omega

theorem Occurs.getElem?_fold {keyword t : Text} {i : Nat} (h : Occurs keyword t i) {n : Nat}
    (hn : n < keyword.length) : (fold t)[i + n]? = keyword[n]? := by
  obtain ⟨-, -, u, hu⟩ := h
  rw [← List.getElem?_drop, ← hu, List.getElem?_append_left hn]

theorem Occurs.after_take {keyword t : Text} {i : Nat} (h : Occurs keyword t i)
    (hplain : keyword.all isPlain = true) {n : Nat} (hn : n ≤ keyword.length) :
    Place.after .start (t.take (i + n)) = .start := by
  obtain ⟨-, hp, u, hu⟩ := h
  have hmore : fold ((t.drop i).take n) = keyword.take n := by
    rw [← fold_take, ← fold_drop, ← hu, List.take_append_of_le_length hn]
  have hplain' : (keyword.take n).all isPlain = true :=
    List.all_eq_true.mpr fun c hc => List.all_eq_true.mp hplain c (List.mem_of_mem_take hc)
  rw [List.take_add, Place.after_append, hp, ← Place.after_fold, hmore]
  exact Place.after_of_isPlain hplain' _

/-- A text behind does not take an occurrence away. -/
theorem Occurs.append {keyword s : Text} {i : Nat} (h : Occurs keyword s i) (t : Text) :
    Occurs keyword (s ++ t) i := by
  obtain ⟨hl, hp, hk⟩ := h
  refine ⟨by rw [List.length_append]; omega, ?_, ?_⟩
  · rw [List.take_append_of_le_length (by omega)]
    exact hp
  · rw [fold_append, List.drop_append_of_le_length (by rw [fold_length]; omega)]
    exact hk.trans (List.prefix_append _ _)

/-- A keyword that begins in the first of two texts lies in it or goes on in the second. -/
theorem prefix_append_cases {k s t : Text} (h : k <+: s ++ t) :
    k <+: s ∨ s.length < k.length ∧ k.take s.length = s ∧ k.drop s.length <+: t := by
  rcases Nat.lt_or_ge s.length k.length with hl | hl
  · right
    obtain ⟨u, hu⟩ := h
    have hs : (k ++ u).take s.length = s := by rw [hu, List.take_left]
    have hd : (k ++ u).drop s.length = t := by rw [hu, List.drop_left]
    rw [List.take_append_of_le_length (by omega)] at hs
    rw [List.drop_append_of_le_length (by omega)] at hd
    exact ⟨hl, hs, u, hd⟩
  · left
    exact List.prefix_of_prefix_length_le h (List.prefix_append s t) hl

end PagedQuery.Text

namespace PagedQuery.Clauses

open Text (Occurs)

variable {t : Text} {clauses : Clauses}

/-- The clauses of a text by the searches that find them. -/
theorem eq_of_of? (h : of? t = some clauses) :
    Text.topLevel? Keyword.fromClause 0 t = some clauses.fromAt ∧
      clauses.whereAt = Text.topLevel? Keyword.whereClause clauses.fromAt t ∧
      clauses.bodyAt = (match clauses.whereAt with
        | none => clauses.fromAt + Keyword.fromClause.length
        | some i => i + Keyword.whereClause.length) ∧
      clauses.tailAt =
        (Text.firstTopLevel? Keyword.trailing clauses.bodyAt t).getD t.length := by
  unfold of? at h
  cases hf : Text.topLevel? Keyword.fromClause 0 t with
  | none =>
    rw [hf] at h
    exact absurd h (by simp)
  | some fromAt =>
    rw [hf] at h
    obtain rfl := Option.some.inj h
    exact ⟨rfl, rfl, rfl, rfl⟩

theorem occurs_whereAt (h : of? t = some clauses) {i : Nat} (hw : clauses.whereAt = some i) :
    Occurs Keyword.whereClause t i ∧ clauses.bodyAt = i + Keyword.whereClause.length := by
  obtain ⟨-, hwhere, hbody, -⟩ := eq_of_of? h
  rw [hw] at hwhere hbody
  exact ⟨Text.occurs_of_topLevel? hwhere.symm, hbody⟩

theorem tailAt_le (h : of? t = some clauses) : clauses.tailAt ≤ t.length := by
  obtain ⟨-, -, -, htail⟩ := eq_of_of? h
  cases hf : Text.firstTopLevel? Keyword.trailing clauses.bodyAt t with
  | none =>
    rw [hf, Option.getD_none] at htail
    exact Nat.le_of_eq htail
  | some j =>
    rw [hf, Option.getD_some] at htail
    obtain ⟨k, -, ho⟩ := (Text.firstTopLevel?_eq_some_iff.mp hf).1
    rw [htail]
    exact Nat.le_of_lt ho.1

theorem bodyAt_le_tailAt (h : of? t = some clauses) {i : Nat} (hw : clauses.whereAt = some i) :
    clauses.bodyAt ≤ clauses.tailAt := by
  obtain ⟨ho, hbody⟩ := occurs_whereAt h hw
  obtain ⟨-, -, -, htail⟩ := eq_of_of? h
  cases hf : Text.firstTopLevel? Keyword.trailing clauses.bodyAt t with
  | none =>
    rw [hf, Option.getD_none] at htail
    rw [htail, hbody]
    exact ho.length_le
  | some j =>
    rw [hf, Option.getD_some] at htail
    rw [htail]
    exact (Text.firstTopLevel?_eq_some_iff.mp hf).2.1

end PagedQuery.Clauses
