import PagedQuery.Proofs.Lexical.Occurrence
import PagedQuery.Text.Alphanumeric

/-!
# Words

A word of SQL stands at the top level, in any ASCII case, where no character of
an identifier goes on before or behind it: white space, parentheses, operators
and quotes bound it alike. Where two texts meet and no identifier goes on from
one into the other, the words of the whole are the words of its parts.
-/
namespace PagedQuery.Text

/-- The character can be part of an identifier. -/
def isIdentifier (c : Char) : Bool := isAlphanumeric c || ['_', '$', '#', '@'].contains c

def Bounds (c : Option Char) : Prop := c.all (fun c => !isIdentifier c) = true

instance (c : Option Char) : Decidable (Bounds c) := inferInstanceAs (Decidable (_ = true))

/-- The word stands at position `i` of the text, outside quotes and parentheses. -/
def Word (word t : Text) (i : Nat) : Prop :=
  Occurs word t i ∧ Bounds (t.take i).getLast? ∧ Bounds (t.drop (i + word.length)).head?

instance (keyword t : Text) (i : Nat) : Decidable (Occurs keyword t i) :=
  inferInstanceAs (Decidable (_ ∧ _ ∧ _))

instance (word t : Text) (i : Nat) : Decidable (Word word t i) :=
  inferInstanceAs (Decidable (_ ∧ _ ∧ _))

/-- No identifier goes on from the first text into the second. -/
def Apart (s t : Text) : Prop := Bounds s.getLast? ∨ Bounds t.head?

theorem bounds_none : Bounds none := rfl

theorem not_bounds_iff {c : Char} : ¬Bounds (some c) ↔ isIdentifier c = true := by
  simp [Bounds]

theorem isIdentifier_of_isUpper {c : Char} (h : (foldChar c).isUpper = true) :
    isIdentifier c = true := by
  have hspace : isAsciiSpace c = false := by
    by_contra hs
    rw [Bool.not_eq_false] at hs
    rw [(foldChar_eq_space_iff c).mpr hs] at h
    exact absurd h (by decide)
  rw [foldChar, hspace] at h
  have hrange : 65 ≤ c.toNat ∧ c.toNat ≤ 90 ∨ 97 ≤ c.toNat ∧ c.toNat ≤ 122 := by
    by_cases hl : 'a'.val ≤ c.val ∧ c.val ≤ 'z'.val
    · exact Or.inr hl
    · left
      unfold Char.toUpper at h
      simp only [Bool.false_eq_true, if_false, dif_neg hl] at h
      unfold Char.isUpper at h
      exact of_decide_eq_true h
  rw [isIdentifier, Bool.or_eq_true]
  left
  rcases hrange with hr | hr
  · exact isAlphanumeric_of_mem (r := (0x41, 0x5A)) (by decide) hr.1 hr.2
  · exact isAlphanumeric_of_mem (r := (0x61, 0x7A)) (by decide) hr.1 hr.2

theorem ranges_disjoint : ∀ r ∈ blankRanges, ∀ s ∈ alphanumericRanges, r.2 < s.1 ∨ s.2 < r.1 := by
  decide +kernel

theorem bounds_of_isBlank {c : Char} (h : isBlank c = true) : Bounds (some c) := by
  by_contra hi
  rw [not_bounds_iff, isIdentifier, Bool.or_eq_true] at hi
  rcases hi with hi | hi
  · obtain ⟨r, hr, hrc⟩ := List.any_eq_true.mp h
    obtain ⟨s, hs, hsc⟩ := List.any_eq_true.mp hi
    rw [Bool.and_eq_true, decide_eq_true_eq, decide_eq_true_eq] at hrc hsc
    have := ranges_disjoint r hr s hs
    omega
  · simp only [List.contains_eq_mem, decide_eq_true_eq, List.mem_cons, List.not_mem_nil,
      or_false] at hi
    rcases hi with rfl | rfl | rfl | rfl <;> exact absurd h (by decide)

theorem isBlank_of_isAsciiSpace {c : Char} (h : isAsciiSpace c = true) : isBlank c = true := by
  simp only [isAsciiSpace, Bool.or_eq_true, decide_eq_true_eq] at h
  rcases h with (((rfl | rfl) | rfl) | rfl) | rfl <;> decide

theorem bounds_of_foldChar {c : Char} (h : foldChar c = ' ') : Bounds (some c) :=
  bounds_of_isBlank (isBlank_of_isAsciiSpace ((foldChar_eq_space_iff c).mp h))

def Capitals (word : Text) : Prop := word ≠ [] ∧ word.all Char.isUpper = true

instance (word : Text) : Decidable (Capitals word) := inferInstanceAs (Decidable (_ ∧ _))

section

variable {word s t : Text} {i : Nat}

theorem Occurs.not_bounds (hword : Capitals word) (h : Occurs word t i) {n : Nat}
    (hn : n < word.length) : ¬Bounds t[i + n]? := by
  have hlen := h.length_le
  have hget := h.getElem?_fold hn
  have hlt : i + n < t.length := by omega
  rw [fold, List.getElem?_map, List.getElem?_eq_getElem hlt, List.getElem?_eq_getElem hn,
    Option.map_some, Option.some.injEq] at hget
  rw [List.getElem?_eq_getElem hlt, not_bounds_iff]
  refine isIdentifier_of_isUpper ?_
  rw [hget]
  exact List.all_eq_true.mp hword.2 _ (List.getElem_mem hn)

/-- A word that begins in the first of two texts that lie apart lies in it. -/
theorem Occurs.of_apart (hword : Capitals word) (h : Apart s t) (ho : Occurs word (s ++ t) i)
    (hi : i < s.length) : Occurs word s i := by
  have hle : i + word.length ≤ s.length := by
    by_contra hlt
    rcases h with h | h
    · have hin := ho.not_bounds hword (n := s.length - 1 - i) (by omega)
      rw [List.getElem?_append_left (by omega), show i + (s.length - 1 - i) = s.length - 1 by omega,
        ← List.getLast?_eq_getElem?] at hin
      exact hin h
    · have hin := ho.not_bounds hword (n := s.length - i) (by omega)
      rw [List.getElem?_append_right (by omega), show i + (s.length - i) - s.length = 0 by omega,
        ← List.head?_eq_getElem?] at hin
      exact hin h
  obtain ⟨-, hp, hpre⟩ := ho
  rw [List.take_append_of_le_length (by omega)] at hp
  rw [fold_append, List.drop_append_of_le_length (by rw [fold_length]; omega)] at hpre
  refine ⟨hi, hp, List.prefix_of_prefix_length_le hpre (List.prefix_append _ _) ?_⟩
  rw [List.length_drop, fold_length]
  omega

/-- Words of texts that lie apart do not see each other. -/
theorem word_append (hword : Capitals word) (hs : Place.after .start s = .start)
    (h : Apart s t) :
    Word word (s ++ t) i ↔ Word word s i ∨ ∃ j, i = s.length + j ∧ Word word t j := by
  have hpos : 0 < word.length := List.length_pos_iff.mpr hword.1
  constructor
  · rintro ⟨ho, hbefore, hbehind⟩
    rcases Nat.lt_or_ge i s.length with hi | hi
    · left
      have ho' := ho.of_apart hword h hi
      refine ⟨ho', ?_, ?_⟩
      · rwa [List.take_append_of_le_length (by omega)] at hbefore
      · rw [List.drop_append_of_le_length ho'.length_le, List.head?_append] at hbehind
        cases hd : (s.drop (i + word.length)).head? with
        | none => exact bounds_none
        | some c => rwa [hd, Option.some_or] at hbehind
    · right
      obtain ⟨j, rfl⟩ := Nat.exists_eq_add_of_le hi
      refine ⟨j, rfl, (occurs_append_right hs).mp ho, ?_, ?_⟩
      · rw [List.take_length_add_append, List.getLast?_append] at hbefore
        cases hl : (t.take j).getLast? with
        | none => exact bounds_none
        | some c => rwa [hl, Option.some_or] at hbefore
      · rwa [Nat.add_assoc, List.drop_length_add_append] at hbehind
  · rintro (⟨ho, hbefore, hbehind⟩ | ⟨j, rfl, ho, hbefore, hbehind⟩)
    · have hle := ho.length_le
      refine ⟨ho.append t, ?_, ?_⟩
      · rwa [List.take_append_of_le_length (by omega)]
      · rw [List.drop_append_of_le_length hle, List.head?_append]
        cases hd : (s.drop (i + word.length)).head? with
        | some c => rwa [hd] at hbehind
        | none =>
          refine h.resolve_left fun hlast => ?_
          have hge := List.drop_eq_nil_iff.mp (List.head?_eq_none_iff.mp hd)
          refine ho.not_bounds hword (n := word.length - 1) (by omega) ?_
          rw [show i + (word.length - 1) = s.length - 1 by omega, ← List.getLast?_eq_getElem?]
          exact hlast
    · refine ⟨(occurs_append_right hs).mpr ho, ?_, ?_⟩
      · rw [List.take_length_add_append, List.getLast?_append]
        cases hl : (t.take j).getLast? with
        | some c => rwa [hl] at hbefore
        | none =>
          refine h.resolve_right fun hhead => ?_
          have hnil := List.getLast?_eq_none_iff.mp hl
          have hj : j = 0 := by
            have := congrArg List.length hnil
            have := ho.1
            rw [List.length_take, List.length_nil] at *
            omega
          subst hj
          refine ho.not_bounds hword hpos ?_
          rw [Nat.add_zero, ← List.head?_eq_getElem?]
          exact hhead
      · rwa [Nat.add_assoc, List.drop_length_add_append]

theorem isBlank_of_fold {n : Nat} (h : (fold t)[n]? = some ' ') :
    ∃ c, t[n]? = some c ∧ isBlank c = true := by
  rw [fold, List.getElem?_map, Option.map_eq_some_iff] at h
  obtain ⟨c, hc, hspace⟩ := h
  exact ⟨c, hc, isBlank_of_isAsciiSpace ((foldChar_eq_space_iff c).mp hspace)⟩

theorem bounds_of_fold {n : Nat} (h : (fold t)[n]? = some ' ') : Bounds t[n]? := by
  obtain ⟨c, hc, hblank⟩ := isBlank_of_fold h
  rw [hc]
  exact bounds_of_isBlank hblank

/-- A word with a space on either side is a word. -/
theorem word_of_occurs (h : Occurs (' ' :: (word ++ [' '])) t i) : Word word t (i + 1) := by
  have hlen := h.length_le
  have hfirst := h.getElem?_fold (n := 0) (by simp)
  have hlast := h.getElem?_fold (n := word.length + 1) (by simp)
  rw [List.getElem?_cons_succ, List.getElem?_concat_length] at hlast
  obtain ⟨hlt, hp, hpre⟩ := h
  simp only [List.length_cons, List.length_append, List.length_nil] at hlen
  obtain ⟨c, hspace, hblank⟩ := isBlank_of_fold hfirst
  rw [Nat.add_zero] at hspace
  have hplain : [c].all isPlain = true := by
    rw [List.all_cons, isPlain_of_isBlank hblank]
    rfl
  refine ⟨⟨by omega, ?_, ?_⟩, ?_, ?_⟩
  · rw [List.take_add_one, hspace, Place.after_append, hp]
    exact Place.after_of_isPlain hplain _
  · rw [← List.drop_drop]
    obtain ⟨u, hu⟩ := hpre
    rw [← hu, List.cons_append, List.drop_succ_cons, List.drop_zero, List.append_assoc]
    exact List.prefix_append _ _
  · rw [List.getLast?_take, if_neg (by omega), Nat.add_sub_cancel, hspace, Option.some_or, ← hspace]
    exact bounds_of_fold hfirst
  · rw [List.head?_drop, show i + 1 + word.length = i + (word.length + 1) by omega]
    exact bounds_of_fold hlast

theorem not_word_of_isBlank (hword : Capitals word) (ht : t.all isBlank = true) :
    ¬Word word t i := by
  rintro ⟨ho, -, -⟩
  have hlt := ho.1
  refine ho.not_bounds hword (List.length_pos_iff.mpr hword.1) ?_
  rw [Nat.add_zero, List.getElem?_eq_getElem hlt]
  exact bounds_of_isBlank (List.all_eq_true.mp ht _ (List.getElem_mem hlt))

theorem bounds_getLast?_of_isBlank (ht : t.all isBlank = true) : Bounds t.getLast? := by
  cases h : t.getLast? with
  | none => exact bounds_none
  | some c => exact bounds_of_isBlank (List.all_eq_true.mp ht c (List.mem_of_getLast? h))

theorem bounds_head?_of_isBlank (ht : t.all isBlank = true) : Bounds t.head? := by
  cases h : t.head? with
  | none => exact bounds_none
  | some c => exact bounds_of_isBlank (List.all_eq_true.mp ht c (List.mem_of_head? h))

/-- Behind blanks the words of a text stand as much later. -/
theorem word_blanks {l v : Text} (hword : Capitals word) (ht : Place.after .start t = .start)
    (hl : l.all isBlank = true) (hv : v.all isBlank = true) :
    Word word (l ++ t ++ v) i ↔ ∃ j, i = l.length + j ∧ Word word t j := by
  have hplain : l.all isPlain = true :=
    List.all_eq_true.mpr fun c hc => isPlain_of_isBlank (List.all_eq_true.mp hl c hc)
  have hstart : Place.after .start l = .start := Place.after_of_isPlain hplain _
  have hfront : Place.after .start (l ++ t) = .start := by rw [Place.after_append, hstart, ht]
  rw [word_append hword hfront (Or.inr (bounds_head?_of_isBlank hv)),
    word_append hword hstart (Or.inl (bounds_getLast?_of_isBlank hl))]
  simp only [not_word_of_isBlank hword hl, not_word_of_isBlank hword hv, and_false, exists_false,
    false_or, or_false]

theorem exists_word_blanks {l v : Text} (hword : Capitals word)
    (ht : Place.after .start t = .start) (hl : l.all isBlank = true) (hv : v.all isBlank = true) :
    (∃ i, Word word (l ++ t ++ v) i) ↔ ∃ i, Word word t i := by
  constructor
  · rintro ⟨i, hi⟩
    obtain ⟨j, -, hj⟩ := (word_blanks hword ht hl hv).mp hi
    exact ⟨j, hj⟩
  · rintro ⟨j, hj⟩
    exact ⟨_, (word_blanks hword ht hl hv).mpr ⟨j, rfl, hj⟩⟩

/-- Closed text inside parentheses has no words of its own at the top level. -/
theorem not_word_parenthesized (hword : Capitals word) (ht : Place.Closed t) :
    ¬Word word (Predicate.parenthesized t) i := by
  rintro ⟨ho, -, -⟩
  rcases Nat.eq_zero_or_pos i with rfl | hi
  · refine ho.not_bounds hword (List.length_pos_iff.mpr hword.1) ?_
    exact (by decide +kernel : Bounds (some '('))
  · exact Place.after_take_parenthesized_ne_start ht hi ho.1 ho.2.1

end

end PagedQuery.Text
