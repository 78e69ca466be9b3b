import PagedQuery.Proofs.Trace.Numbered

/-!
# Keywords of numbered texts

Numbering a text puts tokens in the places of its placeholders. A token has no
space in it, no quotation mark and no parenthesis, and no keyword has a character
of its marker. So depths stay as they are, and a numbered text has a keyword at
the top level when the text has it.
-/
namespace PagedQuery.Placeholder

open Text (Occurs OccursFrom)

variable {style : PlaceholderStyle} {used : UInt64} {q : Quote} {p : Place} {k s t : Text} {i : Nat}

theorem numberFrom_append (style : PlaceholderStyle) (used : UInt64) (q : Quote) (s t : Text) :
    numberFrom style used q (s ++ t) =
      numberFrom style used q s ++
        numberFrom style (used + UInt64.ofNat (countFrom q s)) (q.after s) t := by
  induction s generalizing used q with
  | nil =>
    rw [List.nil_append, countFrom_nil, show UInt64.ofNat 0 = 0 from rfl, UInt64.add_zero]
    rfl
  | cons c s ih =>
    rw [List.cons_append, numberFrom, numberFrom, countFrom, Quote.after_cons]
    split
    · rw [ih, UInt64.ofNat_add, ← UInt64.add_assoc, List.append_assoc]
      rfl
    · rw [ih, Nat.zero_add, List.cons_append]

theorem countFrom_of_isBland (h : s.all isBland = true) : countFrom q s = 0 := by
  induction s generalizing q with
  | nil => rfl
  | cons c s ih =>
    rw [List.all_cons, Bool.and_eq_true] at h
    have hne : c ≠ '?' := by
      rintro rfl
      exact absurd h.1 (by decide)
    rw [countFrom, ih h.2, if_neg fun hc => hne hc.2]

theorem numberFrom_of_isBland (h : s.all isBland = true) : numberFrom style used q s = s :=
  numberFrom_of_countFrom (countFrom_of_isBland h)

/-- Bland text between two texts stays as it is. -/
theorem numberFrom_between (style : PlaceholderStyle) (used : UInt64) {u : Text}
    (hs : Quote.Closed s) (hu : u.all isBland = true) (t : Text) :
    numberFrom style used .outside (s ++ u ++ t) =
      numberFrom style used .outside s ++ u ++
        numberFrom style (used + UInt64.ofNat (count s)) .outside t := by
  have hclosed : Quote.Closed (s ++ u) := hs.append (Trace.closed_of_isBland hu)
  rw [numberFrom_append, numberFrom_append, show Quote.after .outside s = .outside from hs,
    show Quote.after .outside (s ++ u) = .outside from hclosed, numberFrom_of_isBland hu,
    countFrom_append, show Quote.after .outside s = .outside from hs, countFrom_of_isBland hu,
    Nat.add_zero]
  rfl

theorem numberFrom_bland_append (hs : s.all isBland = true) :
    numberFrom style used .outside (s ++ t) = s ++ numberFrom style used .outside t := by
  rw [numberFrom_append, numberFrom_of_isBland hs, countFrom_of_isBland hs, after_of_isBland hs,
    show UInt64.ofNat 0 = 0 from rfl, UInt64.add_zero]

theorem numberFrom_limited (style : PlaceholderStyle) (used : UInt64) {limit : LimitSyntax}
    (w : Window) {front : Text} (hfront : Quote.Closed front) (locking : Text) :
    numberFrom style used .outside (Statement.limited limit w front locking) =
      Statement.limited limit w (numberFrom style used .outside front)
        (numberFrom style (used + UInt64.ofNat (count front)) .outside locking) := by
  by_cases hlimit : limit = .rowNum
  · obtain ⟨before, behind, hbefore, hbehind, -, heq⟩ := Statement.exists_rowNum_eq w
    have hopen : Quote.Closed (before ++ front) := (Trace.closed_of_isBland hbefore).append hfront
    have hall := numberFrom_between style used hopen hbehind []
    rw [List.append_nil, numberFrom_bland_append hbefore] at hall
    rw [hlimit, heq, heq, hall]
    exact List.append_nil _
  · rw [Statement.limited_eq_append hlimit w front,
      Statement.limited_eq_append hlimit w (numberFrom style used .outside front),
      numberFrom_between style used hfront (Trace.isBland_limited hlimit w).1]

theorem restyle_eq_numberFrom (style : PlaceholderStyle) (t : Text) :
    restyle style t = numberFrom style (highest style t) .outside t := by
  cases style with
  | question => rw [restyle_question, Planner.numberFrom_question]
  | dollar => rfl
  | atP => rfl
  | colon => rfl

/-- What a token begins with. -/
def isMarker (c : Char) : Bool := ['?', '$', '@', ':'].contains c

/-- A token is a marker and characters that neither quote nor separate. -/
theorem token_eq_cons (style : PlaceholderStyle) (index : UInt64) :
    ∃ c rest, style.token index = c :: rest ∧ isMarker c = true ∧
      ∀ d ∈ c :: rest, Text.isPlain d = true ∧ Text.isAsciiSpace d = false := by
  have hdigits : ∀ d ∈ Text.ofNat index.toNat, Text.isPlain d = true ∧
      Text.isAsciiSpace d = false := by
    intro d hd
    have hdigit : d.isDigit = true := Nat.isDigit_of_mem_toDigits (by decide) (by decide) hd
    exact ⟨Text.isPlain_of_isDigit hdigit, Text.isAsciiSpace_of_isDigit hdigit⟩
  cases style with
  | question => exact ⟨'?', [], rfl, by decide, List.forall_mem_singleton.mpr (by decide)⟩
  | dollar =>
    refine ⟨'$', Text.ofNat index.toNat, rfl, by decide, fun d hd => ?_⟩
    rcases List.mem_cons.mp hd with rfl | hd
    · decide
    · exact hdigits d hd
  | atP =>
    refine ⟨'@', 'p' :: Text.ofNat index.toNat, rfl, by decide, fun d hd => ?_⟩
    rcases List.mem_cons.mp hd with rfl | hd
    · decide
    · rcases List.mem_cons.mp hd with rfl | hd
      · decide
      · exact hdigits d hd
  | colon =>
    refine ⟨':', Text.ofNat index.toNat, rfl, by decide, fun d hd => ?_⟩
    rcases List.mem_cons.mp hd with rfl | hd
    · decide
    · exact hdigits d hd

theorem foldChar_marker_not_mem (hk : k ∈ Keyword.cuts) {c : Char} (hc : isMarker c = true) :
    Text.foldChar c ∉ k := by
  intro hmem
  have hall : ∀ k ∈ Keyword.cuts, k.all (fun c => c = ' ' || c.isUpper) = true := by decide
  have hkeyword := List.all_eq_true.mp (hall k hk) _ hmem
  have hcases : c = '?' ∨ c = '$' ∨ c = '@' ∨ c = ':' := by simpa [isMarker] using hc
  rcases hcases with rfl | rfl | rfl | rfl <;> exact absurd hkeyword (by decide)

theorem after_token (p : Place) (style : PlaceholderStyle) (index : UInt64) :
    p.after (style.token index) = p := by
  obtain ⟨c, rest, heq, -, hall⟩ := token_eq_cons style index
  rw [heq]
  exact Place.after_of_isPlain (List.all_eq_true.mpr fun d hd => (hall d hd).1) p

/-- Numbering does not change the place behind a text. -/
theorem after_numberFrom (style : PlaceholderStyle) (used : UInt64) (p : Place) (t : Text) :
    p.after (numberFrom style used p.quote t) = p.after t := by
  induction t generalizing used p with
  | nil => rfl
  | cons c t ih =>
    rw [numberFrom, ← Place.step_quote]
    split
    · rename_i hc
      rw [Place.after_append, after_token, Place.after_cons, hc.2,
        Place.step_of_isPlain (by decide)]
      exact ih (used + 1) p
    · rw [Place.after_cons, Place.after_cons, ih]

theorem after_start_numberFrom (style : PlaceholderStyle) (used : UInt64) (t : Text) :
    Place.after .start (numberFrom style used .outside t) = Place.after .start t :=
  after_numberFrom style used .start t

/-- A text begins with a keyword, or a rest of one, when the numbered text does. -/
theorem prefix_of_numberFrom (hk : ∀ c, isMarker c = true → Text.foldChar c ∉ k)
    (h : k <+: Text.fold (numberFrom style used q t)) : k <+: Text.fold t := by
  -- over rests of the keyword, since each character of the text takes one off
  induction t generalizing k used q with
  | nil => exact h
  | cons c t ih =>
    cases k with
    | nil => exact List.nil_prefix
    | cons d k =>
      rw [numberFrom] at h
      split at h
      · obtain ⟨m, rest, heq, hmarker, -⟩ := token_eq_cons style (used + 1)
        rw [heq, Text.fold, List.cons_append, List.map_cons, List.cons_prefix_cons] at h
        exact absurd (h.1 ▸ List.mem_cons_self) (hk m hmarker)
      · rw [Text.fold, List.map_cons, List.cons_prefix_cons] at h ⊢
        exact ⟨h.1, ih (fun m hm hmem => hk m hm (List.mem_cons_of_mem d hmem)) h.2⟩

theorem fold_token_getElem? (style : PlaceholderStyle) (index : UInt64) (i : Nat) :
    (Text.fold (style.token index))[i]? ≠ some ' ' := by
  intro h
  obtain ⟨c, rest, heq, -, hall⟩ := token_eq_cons style index
  rw [heq] at h
  obtain ⟨d, hd, hspace⟩ := List.mem_map.mp (List.mem_of_getElem? h)
  have hnot := (hall d hd).2
  rw [(Text.foldChar_eq_space_iff d).mp hspace] at hnot
  exact absurd hnot (by decide)

theorem occursFrom_token_append (hk : k ∈ Keyword.cuts) {index : UInt64}
    (h : OccursFrom k p (Text.fold (style.token index) ++ t) i) : ∃ j, OccursFrom k p t j := by
  obtain ⟨hlt, htop, hpre⟩ := h
  rcases Nat.lt_or_ge i (Text.fold (style.token index)).length with hin | hge
  · obtain ⟨u, hu⟩ := hpre
    have hspace := congrArg List.head? hu
    rw [List.head?_append, Keyword.head?_of_mem_cuts k hk, Option.some_or, List.head?_drop,
      List.getElem?_append_left hin] at hspace
    exact absurd hspace.symm (fold_token_getElem? style index i)
  · obtain ⟨j, rfl⟩ := Nat.exists_eq_add_of_le hge
    rw [List.length_append] at hlt
    rw [List.take_length_add_append, Place.after_append, Place.after_fold, after_token] at htop
    rw [List.drop_length_add_append] at hpre
    exact ⟨j, by omega, htop, hpre⟩

theorem exists_occursFrom_of_numberFrom (hk : k ∈ Keyword.cuts)
    (h : OccursFrom k p (Text.fold (numberFrom style used p.quote t)) i) :
    ∃ j, OccursFrom k p (Text.fold t) j := by
  induction t generalizing used p i with
  | nil => exact ⟨i, h⟩
  | cons c t ih =>
    have hcons : ∀ {j}, OccursFrom k (p.step c) (Text.fold t) j →
        OccursFrom k p (Text.fold (c :: t)) (j + 1) := by
      intro j hj
      rw [Text.fold, List.map_cons, Text.occursFrom_succ, Place.step_foldChar]
      exact hj
    rw [numberFrom, ← Place.step_quote] at h
    split at h
    · rename_i hc
      have hstep : p.step c = p := by
        rw [hc.2]
        exact Place.step_of_isPlain (by decide) p
      rw [Text.fold_append, hstep] at h
      obtain ⟨n, hn⟩ := occursFrom_token_append hk h
      obtain ⟨j, hj⟩ := ih hn
      exact ⟨j + 1, hcons (by rwa [hstep])⟩
    · rename_i hc
      cases i with
      | zero =>
        have hpre : k <+: Text.fold (numberFrom style used p.quote (c :: t)) := by
          rw [numberFrom, if_neg hc, ← Place.step_quote]
          exact h.2.2
        refine ⟨0, Nat.succ_pos _, h.2.1, ?_⟩
        exact prefix_of_numberFrom (fun _ hm => foldChar_marker_not_mem hk hm) hpre
      | succ i =>
        rw [Text.fold, List.map_cons, Text.occursFrom_succ, Place.step_foldChar] at h
        obtain ⟨j, hj⟩ := ih h
        exact ⟨j + 1, hcons hj⟩

/-- Numbering makes no keyword. -/
theorem exists_occurs_of_numberFrom (hk : k ∈ Keyword.cuts)
    (h : Occurs k (numberFrom style used .outside t) i) : ∃ j, Occurs k t j := by
  obtain ⟨j, hj⟩ := exists_occursFrom_of_numberFrom (p := .start) hk
    (Text.occursFrom_start_fold.mpr h)
  exact ⟨j, Text.occursFrom_start_fold.mp hj⟩

/-- A numbered text begins with a keyword when the text does. -/
theorem prefix_numberFrom (hk : k ∈ Keyword.cuts) (h : k <+: Text.fold t) :
    k <+: Text.fold (numberFrom style used .outside t) := by
  have hbland : ∀ k ∈ Keyword.cuts, k.all isBland = true := by decide
  have hkeyword : (t.take k.length).all isBland = true := isBland_of_prefix_fold (hbland k hk) h
  have hnumbered := numberFrom_append style used .outside (t.take k.length) (t.drop k.length)
  rw [List.take_append_drop, numberFrom_of_isBland hkeyword] at hnumbered
  rw [hnumbered, Text.fold_append, ← Text.fold_take, ← List.prefix_iff_eq_take.mp h]
  exact List.prefix_append _ _

theorem exists_occurs_numberFrom (hk : k ∈ Keyword.cuts) (h : Occurs k t i) :
    ∃ j, Occurs k (numberFrom style used .outside t) j := by
  have hclosed : Quote.Closed (t.take i) := (Trace.cut_of_occurs hk h).1
  have hnumbered := numberFrom_append style used .outside (t.take i) (t.drop i)
  rw [List.take_append_drop, show Quote.after .outside (t.take i) = .outside from hclosed]
    at hnumbered
  have hpre : k <+: Text.fold (t.drop i) := by
    rw [← Text.fold_drop]
    exact h.2.2
  have hbehind : k <+: Text.fold (numberFrom style
      (used + UInt64.ofNat (countFrom .outside (t.take i))) .outside (t.drop i)) :=
    prefix_numberFrom hk hpre
  rw [hnumbered]
  refine ⟨(numberFrom style used .outside (t.take i)).length + 0,
    (Text.occurs_append_right ?_).mpr ⟨?_, rfl, hbehind⟩⟩
  · rw [after_start_numberFrom]
    exact h.2.1
  · have hlong := Keyword.one_lt_length k hk
    have hle := hbehind.length_le
    rw [Text.fold_length] at hle
    omega

theorem isSome_topLevel?_restyle (hk : k ∈ Keyword.cuts) (h : Occurs k t i) :
    (Text.topLevel? k 0 (restyle style t)).isSome = true := by
  obtain ⟨j, hj⟩ : ∃ j, Occurs k (numberFrom style (highest style t) .outside t) j :=
    exists_occurs_numberFrom hk h
  rw [restyle_eq_numberFrom, Option.isSome_iff_ne_none]
  exact fun hnone => Text.topLevel?_eq_none_iff.mp hnone j (Nat.zero_le j) hj

end PagedQuery.Placeholder
