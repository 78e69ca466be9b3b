import Mathlib.Data.List.Forall2
import Mathlib.Data.List.TakeWhile
import PagedQuery.Proofs.Lexical.Word
import PagedQuery.Proofs.Numbering
import PagedQuery.Proofs.Text.Trim

/-!
# Similar texts

Texts are similar when they fold to the same text: they differ in the case of
letters and in the kind of white space only, both in ASCII. Trimming, keyword
search and the count of placeholders do not tell similar texts apart. A number of
the style `@p` does, because its marker has a letter: texts are alike in a style
when they are similar and have the marker of the style at the same positions. Alike
texts stay similar when their placeholders are numbered.
-/
namespace PagedQuery

namespace Text

variable {s t u v : Text} {c m : Char}

/-- The texts differ in the case of letters and in the kind of white space only. -/
def Similar (s t : Text) : Prop := fold s = fold t

instance (s t : Text) : Decidable (Similar s t) := inferInstanceAs (Decidable (_ = _))

/-- Folding changes white space and lower-case letters. -/
theorem foldChar_cases (c : Char) :
    foldChar c = c ∨ (isAsciiSpace c = true ∧ foldChar c = ' ') ∨
      (97 ≤ c.toNat ∧ c.toNat ≤ 122) ∧ 65 ≤ (foldChar c).toNat ∧ (foldChar c).toNat ≤ 90 := by
  by_cases hspace : isAsciiSpace c = true
  · exact Or.inr (Or.inl ⟨hspace, (foldChar_eq_space_iff c).mpr hspace⟩)
  have hfold : foldChar c = c.toUpper := by
    unfold foldChar
    rw [if_neg hspace]
  rw [hfold]
  by_cases hlower : 'a'.val ≤ c.val ∧ c.val ≤ 'z'.val
  · rcases toUpper_cases c with hc | hc
    · exact Or.inl hc
    · exact Or.inr (Or.inr ⟨hlower, hc⟩)
  · left
    unfold Char.toUpper
    exact dif_neg hlower

/-- A test with one answer for all letters and one for all white space, in ASCII, has the same answer
for a character and for the folded one. -/
theorem foldChar_congr {f : Char → Bool} {a b : Bool}
    (hupper : ∀ c : Char, 65 ≤ c.toNat → c.toNat ≤ 90 → f c = a)
    (hlower : ∀ c : Char, 97 ≤ c.toNat → c.toNat ≤ 122 → f c = a)
    (hspace : ∀ c, isAsciiSpace c = true → f c = b) (c : Char) : f (foldChar c) = f c := by
  rcases foldChar_cases c with h | ⟨hs, h⟩ | ⟨hl, hu⟩
  · rw [h]
  · rw [h, hspace c hs, hspace ' ' rfl]
  · rw [hupper _ hu.1 hu.2, hlower _ hl.1 hl.2]

theorem isBlank_foldChar (c : Char) : isBlank (foldChar c) = isBlank c := by
  have hletter : ∀ c : Char, 65 ≤ c.toNat → c.toNat ≤ 122 → isBlank c = false := by
    intro c h₁ h₂
    by_contra h
    simp [isBlank, blankRanges] at h
    omega
  refine foldChar_congr (a := false) (b := true) ?_ ?_ ?_ c
  · exact fun c h₁ h₂ => hletter c h₁ (by omega)
  · exact fun c h₁ h₂ => hletter c (by omega) h₂
  · exact fun c => isBlank_of_isAsciiSpace

theorem isDigit_foldChar (c : Char) : (foldChar c).isDigit = c.isDigit := by
  have hletter : ∀ c : Char, 65 ≤ c.toNat → c.isDigit = false := by
    intro c h
    by_contra hd
    rw [Bool.not_eq_false] at hd
    have := toNat_of_isDigit hd
    omega
  refine foldChar_congr (f := Char.isDigit) (a := false) (b := false) ?_ ?_ ?_ c
  · exact fun c h _ => hletter c h
  · exact fun c h _ => hletter c (by omega)
  · intro c hs
    by_contra hd
    rw [Bool.not_eq_false] at hd
    rw [isAsciiSpace_of_isDigit hd] at hs
    exact absurd hs (by simp)

theorem fold_dropWhile {drop : Char → Bool} (hdrop : ∀ c, drop (foldChar c) = drop c) (t : Text) :
    fold (t.dropWhile drop) = (fold t).dropWhile drop := by
  have hcomp : drop ∘ foldChar = drop := funext hdrop
  rw [fold, fold, List.dropWhile_map, hcomp]

theorem fold_trimEndBy {drop : Char → Bool} (hdrop : ∀ c, drop (foldChar c) = drop c) (t : Text) :
    fold (trimEndBy drop t) = trimEndBy drop (fold t) := by
  have hreverse : ∀ u : Text, fold u.reverse = (fold u).reverse := fun u => List.map_reverse
  rw [trimEndBy, trimEndBy, hreverse, fold_dropWhile hdrop, hreverse]

theorem takeWhile_isDigit_fold (t : Text) :
    (fold t).takeWhile Char.isDigit = t.takeWhile Char.isDigit := by
  have hcomp : Char.isDigit ∘ foldChar = Char.isDigit := funext isDigit_foldChar
  rw [fold, List.takeWhile_map, hcomp]
  have hfixed : (t.takeWhile Char.isDigit).map foldChar = (t.takeWhile Char.isDigit).map id :=
    List.map_congr_left fun c hc => foldChar_of_isDigit (List.mem_takeWhile_imp hc)
  rw [hfixed, List.map_id]

/-- Similar texts are so character by character. -/
theorem similar_iff_forall₂ :
    Similar s t ↔ List.Forall₂ (fun c d => foldChar c = foldChar d) s t := by
  rw [Similar, fold, fold, ← List.forall₂_eq_eq_eq, List.forall₂_map_left_iff,
    List.forall₂_map_right_iff]

namespace Similar

theorem refl (t : Text) : Similar t t := rfl

theorem length_eq (h : Similar s t) : s.length = t.length := by
  have := congrArg List.length h
  rwa [fold_length, fold_length] at this

theorem isEmpty_eq (h : Similar s t) : s.isEmpty = t.isEmpty := by
  rw [Bool.eq_iff_iff, List.isEmpty_iff_length_eq_zero, List.isEmpty_iff_length_eq_zero,
    h.length_eq]

theorem append (h : Similar s t) (h' : Similar u v) : Similar (s ++ u) (t ++ v) := by
  rw [Similar, fold_append, fold_append, h, h']

theorem take (h : Similar s t) (n : Nat) : Similar (s.take n) (t.take n) := by
  rw [Similar, ← fold_take, ← fold_take, h]

theorem drop (h : Similar s t) (n : Nat) : Similar (s.drop n) (t.drop n) := by
  rw [Similar, ← fold_drop, ← fold_drop, h]

/-- Similar texts have the characters that are neither letters nor white space in common. -/
theorem getElem?_eq_iff (h : Similar s t) (hs : isAsciiSpace m = false) (hm : m.toNat < 65)
    (i : Nat) : s[i]? = some m ↔ t[i]? = some m := by
  have hmark : ∀ u : Text, u[i]? = some m ↔ (fold u)[i]? = some m := by
    intro u
    rw [fold, List.getElem?_map, Option.map_eq_some_iff]
    simp only [foldChar_eq_iff hs (Or.inl hm), exists_eq_right]
  rw [hmark s, hmark t, h]

theorem topLevel? (h : Similar s t) (keyword : Text) (start : Nat) :
    Text.topLevel? keyword start s = Text.topLevel? keyword start t := by
  rw [Text.topLevel?, Text.topLevel?, h]

theorem firstTopLevel? (h : Similar s t) (keywords : List Text) (start : Nat) :
    Text.firstTopLevel? keywords start s = Text.firstTopLevel? keywords start t := by
  simp only [Text.firstTopLevel?, h.topLevel?]

theorem hasTopLevel (h : Similar s t) (keywords : List Text) (start : Nat) :
    Text.hasTopLevel keywords start s = Text.hasTopLevel keywords start t := by
  rw [Text.hasTopLevel, Text.hasTopLevel, h.firstTopLevel?]

/-- The clauses of similar texts begin at the same positions. -/
theorem clauses (h : Similar s t) : Clauses.of? s = Clauses.of? t := by
  simp only [Clauses.of?, h.topLevel?, h.firstTopLevel?, h.length_eq]

theorem trimEndBy (h : Similar s t) {drop : Char → Bool} (hdrop : ∀ c, drop (foldChar c) = drop c) :
    Similar (Text.trimEndBy drop s) (Text.trimEndBy drop t) := by
  rw [Similar, fold_trimEndBy hdrop, fold_trimEndBy hdrop, h]

end Similar

end Text

namespace Placeholder

variable {style : PlaceholderStyle} {marker s t u v : Text} {c d : Char} {q : Quote}

theorem countFrom_fold (q : Quote) (t : Text) : countFrom q (Text.fold t) = countFrom q t := by
  induction t generalizing q with
  | nil => rfl
  | cons c t ih =>
    have hmark := Text.foldChar_eq_iff (m := '?') (by decide) (by decide) c
    change countFrom q (Text.foldChar c :: Text.fold t) = _
    simp only [countFrom, hmark, Quote.step_foldChar, ih]

theorem count_of_similar (h : Text.Similar s t) : count s = count t := by
  rw [count, ← countFrom_fold, h, countFrom_fold, count]

theorem leadingNumber?_of_similar (h : Text.Similar s t) : leadingNumber? s = leadingNumber? t := by
  have hdigits : s.takeWhile Char.isDigit = t.takeWhile Char.isDigit := by
    rw [← Text.takeWhile_isDigit_fold, h, Text.takeWhile_isDigit_fold]
  simp only [leadingNumber?, hdigits]

theorem step_eq_of_foldChar (h : Text.foldChar c = Text.foldChar d) (q : Quote) :
    q.step c = q.step d := by
  rw [← Quote.step_foldChar, h, Quote.step_foldChar]

/-- Similar texts stay similar when their placeholders get the same numbers. -/
theorem numberFrom_similar (h : Text.Similar s t) (style : PlaceholderStyle) (used : UInt64)
    (q : Quote) : Text.Similar (numberFrom style used q s) (numberFrom style used q t) := by
  rw [Text.similar_iff_forall₂] at h
  induction h generalizing used q with
  | nil => exact Text.Similar.refl []
  | @cons c d s t hcd _ ih =>
    have hmark : c = '?' ↔ d = '?' := by
      rw [← Text.foldChar_eq_iff (by decide) (by decide) c, hcd,
        Text.foldChar_eq_iff (by decide) (by decide) d]
    have hhead : Text.Similar [c] [d] := congrArg (fun e => [e]) hcd
    simp only [numberFrom, hmark, step_eq_of_foldChar hcd]
    split
    · exact (Text.Similar.refl _).append (ih _ _)
    · exact hhead.append (ih _ _)

theorem singleton_prefix_drop_iff {i : Nat} : [c] <+: t.drop i ↔ t[i]? = some c := by
  rw [← List.head?_drop]
  cases t.drop i with
  | nil => simp
  | cons d u => simp [eq_comm]

theorem pair_prefix_drop_iff {i : Nat} :
    [c, d] <+: t.drop i ↔ t[i]? = some c ∧ t[i + 1]? = some d := by
  have hnext : t[i + 1]? = (t.drop i)[1]? := by rw [List.getElem?_drop]
  rw [hnext, ← List.head?_drop]
  match t.drop i with
  | [] => simp
  | [e] => simp
  | e :: e' :: u => simp [eq_comm]

/-- The texts are similar and have the marker of the style at the same positions. Only the
marker `@p` has a letter. -/
structure Alike (style : PlaceholderStyle) (s t : Text) : Prop where
  similar : Text.Similar s t
  marked : style = .atP → ∀ i, s[i]? = some '@' → (s[i + 1]? = some 'p' ↔ t[i + 1]? = some 'p')

namespace Alike

theorem refl (style : PlaceholderStyle) (t : Text) : Alike style t t :=
  ⟨Text.Similar.refl t, fun _ _ _ => Iff.rfl⟩

theorem of_similar (h : Text.Similar s t) (hat : style = .atP → '@' ∉ s) : Alike style s t where
  similar := h
  marked hstyle _ hi := absurd (List.mem_of_getElem? hi) (hat hstyle)

theorem take (h : Alike style s t) (n : Nat) : Alike style (s.take n) (t.take n) where
  similar := h.similar.take n
  marked hstyle i hi := by
    rw [List.getElem?_take] at hi
    have hmarked := h.marked hstyle i (by split at hi <;> simp_all)
    rw [List.getElem?_take, List.getElem?_take]
    split
    · exact hmarked
    · exact Iff.rfl

theorem drop (h : Alike style s t) (n : Nat) : Alike style (s.drop n) (t.drop n) where
  similar := h.similar.drop n
  marked hstyle i hi := by
    simp only [List.getElem?_drop] at hi ⊢
    exact h.marked hstyle _ hi

theorem of_prefix (h : Alike style s t) (hu : u <+: s) (hv : v <+: t) (huv : Text.Similar u v) :
    Alike style u v := by
  rw [List.prefix_iff_eq_take.mp hu, List.prefix_iff_eq_take.mp hv, huv.length_eq]
  exact h.take v.length

theorem of_suffix (h : Alike style s t) (hu : u <:+ s) (hv : v <:+ t) (huv : Text.Similar u v) :
    Alike style u v := by
  rw [List.suffix_iff_eq_drop.mp hu, List.suffix_iff_eq_drop.mp hv, huv.length_eq,
    h.similar.length_eq]
  exact h.drop _

/-- At the seam the second text goes on with the letter of the marker in both or in neither,
unless the first one does not end with its sign. -/
theorem append (h : Alike style s t) (h' : Alike style u v)
    (hseam : (u.head? = some 'p' ↔ v.head? = some 'p') ∨ s.getLast? ≠ some '@') :
    Alike style (s ++ u) (t ++ v) where
  similar := h.similar.append h'.similar
  marked hstyle i hi := by
    have hlen := h.similar.length_eq
    rcases Nat.lt_trichotomy (i + 1) s.length with hlt | heq | hgt
    · rw [List.getElem?_append_left (by omega)] at hi ⊢
      rw [List.getElem?_append_left (by omega)]
      exact h.marked hstyle i hi
    · have hlast : s.getLast? = some '@' := by
        rw [List.getLast?_eq_getElem?, ← heq, Nat.add_sub_cancel]
        rwa [List.getElem?_append_left (by omega)] at hi
      rw [heq, List.getElem?_append_right (by omega), hlen,
        List.getElem?_append_right (by omega), Nat.sub_self, ← List.head?_eq_getElem?,
        ← List.head?_eq_getElem?]
      exact hseam.resolve_right (fun hne => hne hlast)
    · have hi' : u[i - s.length]? = some '@' := by
        rwa [List.getElem?_append_right (by omega)] at hi
      have hmarked := h'.marked hstyle _ hi'
      have hnext : i - s.length + 1 = i + 1 - s.length := by omega
      rw [hnext] at hmarked
      rw [List.getElem?_append_right (by omega), List.getElem?_append_right (by omega), ← hlen]
      exact hmarked

theorem append_const (h : Alike style s t) (u : Text) : Alike style (s ++ u) (t ++ u) :=
  h.append (refl style u) (Or.inl Iff.rfl)

theorem const_append (h : Alike style s t) (hu : u.getLast? ≠ some '@') :
    Alike style (u ++ s) (u ++ t) :=
  (refl style u).append h (Or.inr hu)

/-- Nothing is marked across a seam behind which no number goes on. -/
theorem append_of_breaks (h : Alike style s t) (h' : Alike style u v) (hu : Breaks u)
    (hv : Breaks v) : Alike style (s ++ u) (t ++ v) :=
  h.append h' (Or.inl (iff_of_false (fun e => (hu _ e).2 rfl) fun e => (hv _ e).2 rfl))

theorem trimEndBy (h : Alike style s t) {drop : Char → Bool}
    (hdrop : ∀ c, drop (Text.foldChar c) = drop c) :
    Alike style (Text.trimEndBy drop s) (Text.trimEndBy drop t) :=
  h.of_prefix (Text.trimEndBy_prefix drop s) (Text.trimEndBy_prefix drop t)
    (h.similar.trimEndBy hdrop)

theorem trimEnd (h : Alike style s t) : Alike style (Text.trimEnd s) (Text.trimEnd t) :=
  h.trimEndBy Text.isBlank_foldChar

theorem trim (h : Alike style s t) : Alike style (Text.trim s) (Text.trim t) := by
  have hstart : Alike style (s.dropWhile Text.isBlank) (t.dropWhile Text.isBlank) := by
    refine h.of_suffix (List.dropWhile_suffix _) (List.dropWhile_suffix _) ?_
    rw [Text.Similar, Text.fold_dropWhile Text.isBlank_foldChar, h.similar,
      Text.fold_dropWhile Text.isBlank_foldChar]
  exact hstart.trimEnd

theorem isPrefixOf_drop (h : Alike style s t) (hmarker : style.marker? = some marker) (i : Nat) :
    marker.isPrefixOf (s.drop i) = marker.isPrefixOf (t.drop i) := by
  rw [Bool.eq_iff_iff, List.isPrefixOf_iff_prefix, List.isPrefixOf_iff_prefix]
  have hsign : ∀ m : Char, Text.isAsciiSpace m = false → m.toNat < 65 →
      ([m] <+: s.drop i ↔ [m] <+: t.drop i) := by
    intro m hs hm
    rw [singleton_prefix_drop_iff, singleton_prefix_drop_iff, h.similar.getElem?_eq_iff hs hm]
  cases style with
  | question => exact absurd hmarker (by simp [PlaceholderStyle.marker?])
  | dollar =>
    obtain rfl := Option.some.inj hmarker
    exact hsign '$' (by decide) (by decide)
  | colon =>
    obtain rfl := Option.some.inj hmarker
    exact hsign ':' (by decide) (by decide)
  | atP =>
    obtain rfl := Option.some.inj hmarker
    rw [pair_prefix_drop_iff, pair_prefix_drop_iff,
      ← h.similar.getElem?_eq_iff (m := '@') (by decide) (by decide)]
    exact and_congr_right (h.marked rfl i)

theorem highestFrom_eq {marker : Text} (h : Text.Similar s t)
    (hmarker : ∀ i, marker.isPrefixOf (s.drop i) = marker.isPrefixOf (t.drop i)) (q : Quote) :
    highestFrom marker q s = highestFrom marker q t := by
  rw [Text.similar_iff_forall₂] at h
  induction h generalizing q with
  | nil => rfl
  | @cons c d s t hcd hrest ih =>
    have hall : Text.Similar (c :: s) (d :: t) := Text.similar_iff_forall₂.mpr (.cons hcd hrest)
    have hhere : leadingToken? marker (c :: s) = leadingToken? marker (d :: t) := by
      have hfirst := hmarker 0
      rw [List.drop_zero, List.drop_zero] at hfirst
      rw [leadingToken?, leadingToken?, hfirst,
        leadingNumber?_of_similar (hall.drop marker.length)]
    have hmore := ih (fun i => hmarker (i + 1)) (q.step d)
    simp only [highestFrom, hhere, step_eq_of_foldChar hcd, hmore]

theorem highest_eq (h : Alike style s t) : highest style s = highest style t := by
  cases hmarker : style.marker? with
  | none => simp only [highest, hmarker]
  | some marker =>
    simp only [highest, hmarker]
    exact highestFrom_eq h.similar (h.isPrefixOf_drop hmarker) .outside

/-- Alike texts stay similar when their placeholders are numbered. -/
theorem restyle (h : Alike style s t) : Text.Similar (restyle style s) (restyle style t) := by
  unfold Placeholder.restyle
  split
  · exact h.similar
  · rw [h.highest_eq]
    exact numberFrom_similar h.similar _ _ _

end Alike

end Placeholder

end PagedQuery
