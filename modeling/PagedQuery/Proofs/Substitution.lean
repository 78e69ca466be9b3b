import PagedQuery.Proofs.Renumbering

/-!
# Literals for placeholders

A literal put in for a placeholder is closed, has no placeholder of its own and
no blanks at its ends. Then it makes no difference whether a text is filled
before it is cut, trimmed and joined or afterwards.
-/
namespace PagedQuery

namespace Text

variable {t u v : Text}

theorem trim_eq_self_iff : trim t = t ↔
    (∀ c ∈ t.head?, isBlank c = false) ∧ ∀ c ∈ t.getLast?, isBlank c = false := by
  constructor
  · intro h
    have hhead := List.dropWhile_eq_self_iff.mp (dropWhile_isBlank_of_trim h)
    have hlast := List.rdropWhile_eq_self_iff.mp (trimEnd_of_trim h)
    constructor
    · intro c hc
      obtain ⟨u, rfl⟩ := List.head?_eq_some_iff.mp hc
      exact Bool.not_eq_true _ ▸ hhead (Nat.succ_pos _)
    · intro c hc
      obtain ⟨u, rfl⟩ := List.getLast?_eq_some_iff.mp hc
      have := hlast (List.concat_ne_nil _ _)
      rw [List.getLast_concat] at this
      exact Bool.not_eq_true _ ▸ this
  · rintro ⟨hhead, hlast⟩
    have hdrop : t.dropWhile isBlank = t := by
      cases t with
      | nil => rfl
      | cons c t => rw [List.dropWhile_cons_of_neg (Bool.not_eq_true _ ▸ hhead c rfl)]
    rw [trim, trimBy, hdrop]
    exact trimEndBy_eq_self hlast

theorem trim_between (hu : u.all isBlank = true) (hv : v.all isBlank = true) :
    trim (u ++ t ++ v) = trim t := by
  have hfront : (u ++ (t ++ v)).dropWhile isBlank = (t ++ v).dropWhile isBlank :=
    List.dropWhile_append_of_pos (List.all_eq_true.mp hu)
  have hback : trimEnd (t ++ v) = trimEnd t := by
    rw [trimEnd, trimEndBy, List.reverse_append, List.dropWhile_append_of_pos]
    · rfl
    · exact fun c hc => List.all_eq_true.mp hv c (List.mem_reverse.mp hc)
  rw [trim_eq_trimEnd, List.append_assoc, hfront, ← trim_eq_trimEnd, ← trim_trimEnd, hback,
    trim_trimEnd]

theorem trim_blank_append (hu : u.all isBlank = true) (t : Text) : trim (u ++ t) = trim t := by
  have h : trim (u ++ t ++ []) = trim t := trim_between hu rfl
  rwa [List.append_nil] at h

theorem trim_append_blank (hv : v.all isBlank = true) (t : Text) : trim (t ++ v) = trim t :=
  trim_between (u := []) rfl hv

theorem trim_eq_nil_iff : trim t = [] ↔ t.all isBlank = true := by
  constructor
  · intro h
    obtain ⟨u, v, ht, hu, hv⟩ := trim_append_blanks t
    rw [ht, h, List.append_nil, List.all_append, hu, hv]
    rfl
  · intro h
    rw [trim_eq_trimEnd, List.dropWhile_eq_nil_iff.mpr (List.all_eq_true.mp h)]
    rfl

theorem isAllBlank_iff : isAllBlank t = true ↔ trim t = [] := List.isEmpty_iff

end Text

namespace Placeholder

variable {q : Quote} {tokens : List Text} {s t : Text} {k i : Nat}

theorem count_trim (t : Text) : count (Text.trim t) = count t := by
  obtain ⟨u, v, ht, hu, hv⟩ := Text.trim_append_blanks t
  have hbland : ∀ {w : Text}, w.all Text.isBlank = true → w.all isBland = true := fun hw =>
    isBland_of_isSpacer (List.all_eq_true.mpr fun c hc =>
      isSpacer_of_isBlank (List.all_eq_true.mp hw c hc))
  conv_rhs => rw [ht, count, countFrom_append, countFrom_append, countFrom_of_isBland (hbland hu),
    after_of_isBland (hbland hu), countFrom_of_isBland (hbland hv), Nat.zero_add, Nat.add_zero]
  rfl

theorem fillFrom_append (q : Quote) (tokens : List Text) (s t : Text) :
    fillFrom q tokens (s ++ t) =
      fillFrom q tokens s ++ fillFrom (q.after s) (tokens.drop (countFrom q s)) t := by
  induction s generalizing q tokens with
  | nil => rfl
  | cons c s ih =>
    rw [List.cons_append, fillFrom, fillFrom, countFrom, Quote.after_cons]
    split
    · rw [ih, Nat.add_comm 1, ← List.drop_tail, List.append_assoc]
    · rw [ih, Nat.zero_add, List.cons_append]

theorem fill_append (hs : Quote.Closed s) (tokens : List Text) (t : Text) :
    fill tokens (s ++ t) = fill tokens s ++ fill (tokens.drop (count s)) t := by
  rw [fill, fillFrom_append, show Quote.after .outside s = .outside from hs]
  rfl

theorem fillFrom_of_isBland (h : s.all isBland = true) : fillFrom q tokens s = s :=
  fillFrom_of_countFrom (countFrom_of_isBland h) tokens

/-- The text can be put in for a placeholder. -/
structure Literal (t : Text) : Prop where
  closed : Place.Closed t
  bare : count t = 0
  ne_nil : t ≠ []
  trim_eq : Text.trim t = t

/-- There is a literal for each of so many placeholders. -/
structure Literals (tokens : List Text) (n : Nat) : Prop where
  literal : ∀ t ∈ tokens, Literal t
  length_le : n ≤ tokens.length

theorem Literals.mono {n m : Nat} (h : Literals tokens n) (hle : m ≤ n) : Literals tokens m :=
  ⟨h.literal, hle.trans h.length_le⟩

theorem Literals.drop {n m : Nat} (h : Literals tokens (n + m)) : Literals (tokens.drop n) m where
  literal t ht := h.literal t (List.mem_of_mem_drop ht)
  length_le := by
    have := h.length_le
    rw [List.length_drop]
    omega

theorem Literals.exists_cons {n : Nat} (h : Literals tokens (n + 1)) :
    ∃ literal rest, tokens = literal :: rest ∧ Literal literal := by
  cases tokens with
  | nil => exact absurd h.length_le (by simp)
  | cons literal rest => exact ⟨literal, rest, rfl, h.literal literal List.mem_cons_self⟩

/-- What a character becomes has blanks at its ends only if it is one. -/
theorem ends_fillFrom_singleton (c : Char) (h : Literals tokens (countFrom q [c])) :
    fillFrom q tokens [c] ≠ [] ∧
      (Text.isBlank c = false → Text.trim (fillFrom q tokens [c]) = fillFrom q tokens [c]) := by
  rw [countFrom] at h
  rw [fillFrom]
  split
  · rename_i hc
    rw [if_pos hc] at h
    obtain ⟨literal, rest, rfl, hliteral⟩ := h.exists_cons
    rw [List.headD_cons, fillFrom, List.append_nil]
    exact ⟨hliteral.ne_nil, fun _ => hliteral.trim_eq⟩
  · refine ⟨List.cons_ne_nil _ _, fun hblank => Text.trim_eq_self_iff.mpr ?_⟩
    rw [fillFrom, List.head?_singleton, List.getLast?_singleton]
    exact ⟨fun d hd => Option.some.inj hd ▸ hblank, fun d hd => Option.some.inj hd ▸ hblank⟩

theorem fillFrom_eq_nil_iff (h : Literals tokens (countFrom q t)) :
    fillFrom q tokens t = [] ↔ t = [] := by
  cases t with
  | nil => exact iff_of_true rfl rfl
  | cons c t =>
    rw [← List.singleton_append, countFrom_append] at h
    have hne := (ends_fillFrom_singleton c (h.mono (Nat.le_add_right _ _))).1
    rw [← List.singleton_append, fillFrom_append, List.append_eq_nil_iff]
    exact iff_of_false (fun he => hne he.1) (List.cons_ne_nil _ _)

/-- A text without blanks at its ends has none after it is filled. -/
theorem trim_fill_of_trim (ht : Text.trim t = t) (h : Literals tokens (count t)) :
    Text.trim (fill tokens t) = fill tokens t := by
  obtain ⟨hhead, hlast⟩ := Text.trim_eq_self_iff.mp ht
  refine Text.trim_eq_self_iff.mpr ⟨?_, ?_⟩
  · cases t with
    | nil => exact fun c hc => absurd hc (by simp [fill, fillFrom])
    | cons c t =>
      rw [count, ← List.singleton_append, countFrom_append] at h
      obtain ⟨hne, htrim⟩ := ends_fillFrom_singleton c (h.mono (Nat.le_add_right _ _))
      rw [fill, ← List.singleton_append, fillFrom_append, List.head?_append_of_ne_nil _ hne]
      exact (Text.trim_eq_self_iff.mp (htrim (hhead c rfl))).1
  · rcases List.eq_nil_or_concat t with rfl | ⟨w, c, rfl⟩
    · exact fun c hc => absurd hc (by simp [fill, fillFrom])
    · rw [List.concat_eq_append] at hlast h ⊢
      rw [count, countFrom_append] at h
      obtain ⟨hne, htrim⟩ := ends_fillFrom_singleton c h.drop
      rw [fill, fillFrom_append, List.getLast?_append_of_ne_nil _ hne]
      exact (Text.trim_eq_self_iff.mp (htrim (hlast c List.getLast?_concat))).2

theorem trim_fill (h : Literals tokens (count t)) :
    Text.trim (fill tokens t) = fill tokens (Text.trim t) := by
  obtain ⟨u, v, ht, hu, hv⟩ := Text.trim_append_blanks t
  have hbland : ∀ {w : Text}, w.all Text.isBlank = true → w.all isBland = true := fun hw =>
    isBland_of_isSpacer (List.all_eq_true.mpr fun c hc =>
      isSpacer_of_isBlank (List.all_eq_true.mp hw c hc))
  have hfill : fill tokens t = u ++ fill tokens (Text.trim t) ++ v := by
    conv_lhs => rw [ht, fill, fillFrom_append, fillFrom_append, fillFrom_of_isBland (hbland hu),
      fillFrom_of_isBland (hbland hv), after_of_isBland (hbland hu),
      countFrom_of_isBland (hbland hu), List.drop_zero]
    rfl
  rw [← count_trim] at h
  rw [hfill, Text.trim_between hu hv, trim_fill_of_trim (Text.trim_trim t) h]

theorem isAllBlank_fill (h : Literals tokens (count t)) :
    Text.isAllBlank (fill tokens t) = Text.isAllBlank t := by
  rw [Bool.eq_iff_iff, Text.isAllBlank_iff, Text.isAllBlank_iff, trim_fill h, fill,
    fillFrom_eq_nil_iff (h.mono (count_trim t).le)]

/-- At position `i` stands the placeholder number `k` of the text, counted from zero. -/
def At (t : Text) (k i : Nat) : Prop :=
  t[i]? = some '?' ∧ Quote.after .outside (t.take i) = .outside ∧ count (t.take i) = k

instance (t : Text) (k i : Nat) : Decidable (At t k i) := inferInstanceAs (Decidable (_ ∧ _ ∧ _))

theorem At.append (h : At s k i) (t : Text) : At (s ++ t) k i := by
  obtain ⟨hget, hquote, hcount⟩ := h
  have hlt : i < s.length := (List.getElem?_eq_some_iff.mp hget).1
  rw [At, List.getElem?_append_left hlt, List.take_append_of_le_length hlt.le]
  exact ⟨hget, hquote, hcount⟩

theorem At.append_right (h : At t k i) (hs : Quote.Closed s) :
    At (s ++ t) (count s + k) (s.length + i) := by
  obtain ⟨hget, hquote, hcount⟩ := h
  rw [At, List.getElem?_append_right (Nat.le_add_right _ _), Nat.add_sub_cancel_left,
    List.take_length_add_append, hs.after_append, count_append hs, hcount]
  exact ⟨hget, hquote, rfl⟩

theorem exists_split (h : k < countFrom q t) :
    ∃ s u, t = s ++ '?' :: u ∧ q.after s = .outside ∧ countFrom q s = k := by
  induction t generalizing q k with
  | nil => exact absurd h (Nat.not_lt_zero _)
  | cons c t ih =>
    rw [countFrom] at h
    by_cases hc : q = .outside ∧ c = '?'
    · rw [if_pos hc] at h
      cases k with
      | zero => exact ⟨[], t, by rw [hc.2, List.nil_append], hc.1, rfl⟩
      | succ k =>
        obtain ⟨s, u, rfl, hquote, hcount⟩ := ih (q := q.step c) (k := k) (by omega)
        exact ⟨c :: s, u, rfl, hquote, by rw [countFrom, if_pos hc, hcount, Nat.add_comm]⟩
    · rw [if_neg hc, Nat.zero_add] at h
      obtain ⟨s, u, rfl, hquote, hcount⟩ := ih h
      exact ⟨c :: s, u, rfl, hquote, by rw [countFrom, if_neg hc, hcount, Nat.zero_add]⟩

theorem exists_at (h : k < count t) : ∃ i, At t k i := by
  obtain ⟨s, u, rfl, hquote, hcount⟩ := exists_split h
  refine ⟨s.length, ?_, ?_, ?_⟩
  · rw [List.getElem?_append_right le_rfl, Nat.sub_self]
    rfl
  · rw [List.take_left, hquote]
  · rw [List.take_left]
    exact hcount

end Placeholder

end PagedQuery
