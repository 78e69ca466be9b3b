import PagedQuery.Proofs.Substitution

/-!
# What restyling changes

A text is cut at its placeholders into stretches. Restyling puts numbered tokens
between the stretches, in order and above every number that the text has, and
leaves the stretches as they are, quoted where they were quoted. No placeholder is
left, so restyling once more changes nothing.
-/
namespace PagedQuery.Placeholder

variable {style : PlaceholderStyle} {marker : Text} {q : Quote} {t first s : Text}
  {rest marks : List Text} {m h : Nat}

/-- The stretches with the marks between them. -/
def weave (first : Text) (marks rest : List Text) : Text :=
  first ++ (List.zipWith (· ++ ·) marks rest).flatten

/-- No stretch has a placeholder, and no quotation is open where one ends that others follow; the
first stretch is read from the state `q`. -/
def Stretches (q : Quote) : Text → List Text → Prop
  | first, [] => countFrom q first = 0
  | first, next :: rest =>
    countFrom q first = 0 ∧ q.after first = .outside ∧ Stretches .outside next rest

/-- A marker stands outside quotes with a number behind it that fits 64 bits, in a text that begins
in the state `q`. -/
def HasNumberFrom (marker : Text) (q : Quote) (t : Text) (m : Nat) : Prop :=
  ∃ s u, t = s ++ (marker ++ u) ∧ q.after s = .outside ∧ u.takeWhile Char.isDigit ≠ [] ∧
    Text.digitsValue 0 (u.takeWhile Char.isDigit) = m ∧ m < UInt64.size

def HasNumber (marker t : Text) (m : Nat) : Prop := HasNumberFrom marker .outside t m

/-- The largest number behind a marker outside quotes, or zero if there is none. -/
structure IsHighest (marker t : Text) (h : Nat) : Prop where
  le : ∀ m, HasNumber marker t m → m ≤ h
  eq_zero_or : h = 0 ∨ HasNumber marker t h

/-- So many tokens with the numbers after `h`. -/
def numbered (marker : Text) (h n : Nat) : List Text :=
  (List.range n).map fun k => marker ++ Text.ofNat (h + k + 1)

/-- The second text is the first one with its placeholders numbered after `h`. -/
structure Restyled (marker : Text) (h : Nat) (t restyled first : Text) (rest : List Text) :
    Prop where
  /-- The text is cut at its placeholders. -/
  stretches : Stretches .outside first rest
  text_eq : t = weave first (List.replicate (count t) ['?']) rest
  length_rest : rest.length = count t
  /-- The tokens stand in the places of the placeholders. -/
  restyled_eq : restyled = weave first (numbered marker h (count t)) rest
  above : ∀ m, HasNumber marker t m → ∀ k < count t, m < h + k + 1
  /-- What is read of a stretch is quoted or not as it was. -/
  quote_eq : ∀ n stretch, rest[n]? = some stretch → ∀ s, s <+: stretch →
    Quote.after .outside (weave first (numbered marker h (count t)) (rest.take n ++ [s])) =
      Quote.after .outside (weave first (List.replicate (count t) ['?']) (rest.take n ++ [s]))
  count_eq : count restyled = 0
  restyle_eq : ∀ style, restyle style restyled = restyled

@[simp] theorem weave_nil (first : Text) (marks : List Text) : weave first marks [] = first := by
  simp [weave]

@[simp] theorem weave_cons_cons (first mark next : Text) (marks rest : List Text) :
    weave first (mark :: marks) (next :: rest) = first ++ (mark ++ weave next marks rest) := by
  simp [weave]

theorem leadingNumber?_eq_some_iff {u : Text} {n : UInt64} :
    leadingNumber? u = some n ↔
      u.takeWhile Char.isDigit ≠ [] ∧ Text.digitsValue 0 (u.takeWhile Char.isDigit) = n.toNat := by
  unfold leadingNumber?
  simp only
  split
  · rename_i hfits
    rw [Option.some_inj, ← UInt64.toNat_inj, UInt64.toNat_ofNat_of_lt' hfits.2]
    exact ⟨fun he => ⟨hfits.1, he⟩, fun he => he.2⟩
  · rename_i hfits
    simp only [reduceCtorEq, false_iff, not_and]
    intro hne he
    exact hfits ⟨hne, he ▸ n.toNat_lt⟩

theorem not_hasNumberFrom_nil : ¬HasNumberFrom marker q [] m := by
  rintro ⟨s, u, he, -, hne, -⟩
  simp only [List.nil_eq, List.append_eq_nil_iff] at he
  exact hne (by rw [he.2.2]; rfl)

theorem hasNumberFrom_cons {c : Char} :
    HasNumberFrom marker q (c :: t) m ↔
      (q = .outside ∧ ∃ n, leadingToken? marker (c :: t) = some n ∧ n.toNat = m) ∨
        HasNumberFrom marker (q.step c) t m := by
  constructor
  · rintro ⟨s, u, he, hquote, hne, hvalue, hfits⟩
    cases s with
    | nil =>
      left
      have hnumber : leadingNumber? u = some (UInt64.ofNat m) :=
        leadingNumber?_eq_some_iff.mpr
          ⟨hne, by rw [hvalue, UInt64.toNat_ofNat_of_lt' hfits]⟩
      refine ⟨hquote, UInt64.ofNat m, ?_, UInt64.toNat_ofNat_of_lt' hfits⟩
      rw [he, List.nil_append, leadingToken?,
        if_pos (List.isPrefixOf_iff_prefix.mpr (List.prefix_append _ _)), List.drop_left, hnumber]
    | cons d s =>
      right
      obtain ⟨rfl, rfl⟩ := List.cons.inj he
      exact ⟨s, u, rfl, hquote, hne, hvalue, hfits⟩
  · rintro (⟨rfl, n, htoken, rfl⟩ | ⟨s, u, rfl, hrest⟩)
    · unfold leadingToken? at htoken
      split at htoken
      · rename_i hprefix
        obtain ⟨u, hu⟩ := List.isPrefixOf_iff_prefix.mp hprefix
        rw [← hu, List.drop_left] at htoken
        obtain ⟨hne, hvalue⟩ := leadingNumber?_eq_some_iff.mp htoken
        exact ⟨[], u, hu.symm, rfl, hne, hvalue, n.toNat_lt⟩
      · exact absurd htoken (by simp)
    · exact ⟨c :: s, u, rfl, hrest⟩

theorem highestFrom_spec (marker : Text) (q : Quote) (t : Text) :
    (∀ m, HasNumberFrom marker q t m → m ≤ (highestFrom marker q t).toNat) ∧
      ((highestFrom marker q t).toNat = 0 ∨
        HasNumberFrom marker q t (highestFrom marker q t).toNat) := by
  induction t generalizing q with
  | nil => exact ⟨fun m hm => absurd hm not_hasNumberFrom_nil, .inl rfl⟩
  | cons c t ih =>
    obtain ⟨hle, hor⟩ := ih (q.step c)
    simp only [hasNumberFrom_cons, highestFrom, UInt64.toNat_max]
    by_cases hq : q = .outside
    · cases htoken : leadingToken? marker (c :: t) with
      | none =>
        simp only [reduceCtorEq, false_and, exists_false, and_false, false_or, ite_self,
          Option.getD_none, UInt64.toNat_zero, Nat.zero_max]
        exact ⟨hle, hor⟩
      | some n =>
        simp only [hq, if_true, Option.getD_some, Option.some_inj, true_and]
        rw [hq] at hle hor
        constructor
        · rintro m (⟨n', rfl, rfl⟩ | hm)
          · exact Nat.le_max_left _ _
          · exact (hle m hm).trans (Nat.le_max_right _ _)
        · rcases Nat.le_total n.toNat (highestFrom marker (Quote.step .outside c) t).toNat with hn | hn
          · rw [Nat.max_eq_right hn]
            exact hor.imp_right .inr
          · rw [Nat.max_eq_left hn]
            exact .inr (.inl ⟨n, rfl, rfl⟩)
    · simp only [hq, if_false, false_and, false_or, Option.getD_none, UInt64.toNat_zero,
        Nat.zero_max]
      exact ⟨hle, hor⟩

theorem IsHighest.eq {n : Nat} (hn : IsHighest marker t n) (hh : IsHighest marker t h) : n = h := by
  have hle : ∀ {a b : Nat}, IsHighest marker t a → IsHighest marker t b → a ≤ b := by
    intro a b ha hb
    rcases ha.eq_zero_or with rfl | hnumber
    · exact Nat.zero_le b
    · exact hb.le a hnumber
  exact Nat.le_antisymm (hle hn hh) (hle hh hn)

theorem isHighest_highest (hmarker : style.marker? = some marker) (t : Text) :
    IsHighest marker t (highest style t).toNat := by
  simp only [highest, hmarker]
  exact ⟨(highestFrom_spec marker .outside t).1, (highestFrom_spec marker .outside t).2⟩

/-- Every text is cut at its placeholders. -/
theorem exists_stretches (q : Quote) (t : Text) :
    ∃ first rest, rest.length = countFrom q t ∧ Stretches q first rest ∧
      t = weave first (List.replicate (countFrom q t) ['?']) rest := by
  induction hn : countFrom q t generalizing q t with
  | zero => exact ⟨t, [], rfl, hn, (weave_nil t _).symm⟩
  | succ n ih =>
    obtain ⟨first, u, rfl, hquote, hcount⟩ :=
      exists_split (q := q) (t := t) (k := 0) (by rw [hn]; exact Nat.succ_pos n)
    have hu : countFrom .outside u = n := by
      rw [countFrom_append, hcount, hquote, countFrom, if_pos ⟨rfl, rfl⟩] at hn
      have hstep : Quote.step .outside '?' = .outside := rfl
      rw [hstep] at hn
      omega
    obtain ⟨next, rest, hlength, hstretches, heq⟩ := ih .outside u hu
    refine ⟨first, next :: rest, by rw [List.length_cons, hlength], ⟨hcount, hquote, hstretches⟩, ?_⟩
    rw [List.replicate_succ, weave_cons_cons, ← heq]
    rfl

theorem fillFrom_weave (hs : Stretches q first rest) (hmarks : marks.length = rest.length) :
    fillFrom q marks (weave first (List.replicate rest.length ['?']) rest) =
      weave first marks rest := by
  induction rest generalizing q first marks with
  | nil => rw [weave_nil, weave_nil, fillFrom_of_countFrom hs]
  | cons next rest ih =>
    obtain ⟨hcount, hquote, hrest⟩ := hs
    cases marks with
    | nil => exact absurd hmarks (by simp)
    | cons mark marks =>
      rw [List.length_cons, List.length_cons, Nat.add_right_cancel_iff] at hmarks
      rw [List.length_cons, List.replicate_succ, weave_cons_cons, weave_cons_cons,
        fillFrom_append, fillFrom_of_countFrom hcount, hquote, hcount, List.drop_zero,
        List.singleton_append, fillFrom, if_pos ⟨rfl, rfl⟩, List.headD_cons, List.tail_cons]
      have hstep : Quote.step .outside '?' = .outside := rfl
      rw [hstep, ih hrest hmarks]

/-- Marks that open and close no quotation do not matter to quotations. -/
theorem after_weave (hmarks : ∀ mark ∈ marks, ∀ q : Quote, q.after mark = q)
    (hlength : rest.length ≤ marks.length) (q : Quote) (first : Text) :
    q.after (weave first marks rest) = q.after (first ++ rest.flatten) := by
  induction rest generalizing q first marks with
  | nil => rw [weave_nil, List.flatten_nil, List.append_nil]
  | cons next rest ih =>
    cases marks with
    | nil => exact absurd hlength (by simp)
    | cons mark marks =>
      have hrest := ih (fun m hm => hmarks m (List.mem_cons_of_mem _ hm))
        (Nat.le_of_succ_le_succ hlength) (q.after first) next
      rw [weave_cons_cons, Quote.after_append, Quote.after_append,
        hmarks mark List.mem_cons_self, hrest, ← Quote.after_append, List.flatten_cons]

theorem countFrom_weave (hs : Stretches q first rest)
    (hmarks : ∀ mark ∈ marks, Quote.after .outside mark = .outside ∧ count mark = 0)
    (hlength : rest.length ≤ marks.length) : countFrom q (weave first marks rest) = 0 := by
  induction rest generalizing q first marks with
  | nil => rw [weave_nil, hs]
  | cons next rest ih =>
    obtain ⟨hcount, hquote, hrest⟩ := hs
    cases marks with
    | nil => exact absurd hlength (by simp)
    | cons mark marks =>
      obtain ⟨hafter, hmark⟩ := hmarks mark List.mem_cons_self
      have hbehind := ih hrest (fun m hm => hmarks m (List.mem_cons_of_mem _ hm))
        (Nat.le_of_succ_le_succ hlength)
      rw [weave_cons_cons, countFrom_append, countFrom_append, hquote, hafter, hcount, hbehind,
        Nat.zero_add, Nat.add_zero]
      exact hmark

theorem countFrom_of_not_mem (hs : '?' ∉ s) : countFrom q s = 0 := by
  induction s generalizing q with
  | nil => rfl
  | cons c s ih =>
    rw [List.mem_cons, not_or] at hs
    rw [countFrom, if_neg fun hc => hs.1 hc.2.symm, ih hs.2]

theorem after_numbered (hmarker : style.marker? = some marker) {n : Nat} :
    ∀ mark ∈ numbered marker h n, (∀ q : Quote, q.after mark = q) ∧ count mark = 0 := by
  intro mark hmem
  obtain ⟨k, -, rfl⟩ := List.mem_map.mp hmem
  have hdigits : ∀ c ∈ Text.ofNat (h + k + 1), c.isDigit = true := fun c hc =>
    Nat.isDigit_of_mem_toDigits (by decide) (by decide) hc
  have hmarkers : ∀ m ∈ markers, m.all Text.isPlain = true ∧ '?' ∉ m := by decide
  obtain ⟨hplain, hnot⟩ := hmarkers marker (mem_markers hmarker)
  constructor
  · intro q
    have hall : (marker ++ Text.ofNat (h + k + 1)).all Text.isPlain = true := by
      rw [List.all_append, hplain, Bool.true_and]
      exact List.all_eq_true.mpr fun c hc => Text.isPlain_of_isDigit (hdigits c hc)
    have hplace := congrArg Place.quote (Place.after_of_isPlain hall ⟨q, 0⟩)
    rwa [Place.after_quote] at hplace
  · refine countFrom_of_not_mem fun hmem => ?_
    rcases List.mem_append.mp hmem with hc | hc
    · exact hnot hc
    · exact absurd (hdigits _ hc) (by decide)

/-- The tokens have the numbers after the largest one, as long as these fit 64 bits. -/
theorem tokens_eq_numbered (hmarker : style.marker? = some marker)
    (hfits : (highest style t).toNat + count t < UInt64.size) :
    tokens style t = numbered marker (highest style t).toNat (count t) := by
  refine List.map_congr_left fun k hk => ?_
  have hlt : k < count t := List.mem_range.mp hk
  have hindex : (index style t k).toNat = (highest style t).toNat + k + 1 := by
    have hsize : UInt64.size = 2 ^ 64 := rfl
    rw [index, UInt64.toNat_add, UInt64.toNat_add, UInt64.toNat_ofNat', UInt64.toNat_one]
    omega
  simp only [PlaceholderStyle.token, hmarker, hindex]

/-- A text without placeholders stays as it is in every style. -/
theorem restyle_of_count (ht : count t = 0) (style : PlaceholderStyle) : restyle style t = t := by
  by_cases hstyle : style = .question
  · rw [hstyle, restyle_question]
  · rw [restyle_eq_fill hstyle]
    exact fillFrom_of_countFrom ht _

/-- In the question mark style a text stays as it is. In a numbered style a token stands in the
place of each placeholder, with the numbers after the largest one that the text has, and nothing
else changes. -/
theorem restyle_exact (hmarker : style.marker? = some marker) (t : Text) :
    restyle .question t = t ∧ ∃ h, IsHighest marker t h ∧
      (h + count t < UInt64.size →
        ∃ first rest, Restyled marker h t (restyle style t) first rest) := by
  have hstyle : style ≠ .question := by
    rintro rfl
    exact absurd hmarker (by simp [PlaceholderStyle.marker?])
  have hhighest := isHighest_highest hmarker t
  refine ⟨rfl, (highest style t).toNat, hhighest, fun hfits => ?_⟩
  obtain ⟨first, rest, hlength, hstretches, heq⟩ := exists_stretches .outside t
  have hlength' : rest.length = count t := hlength
  have htokens := tokens_eq_numbered hmarker hfits
  have hmarks := after_numbered hmarker (h := (highest style t).toNat) (n := count t)
  have hsize : (numbered marker (highest style t).toNat (count t)).length = count t := by
    rw [numbered, List.length_map, List.length_range]
  have hrestyled : restyle style t =
      weave first (numbered marker (highest style t).toNat (count t)) rest := by
    have hfill := fillFrom_weave hstretches (hsize.trans hlength'.symm)
    rw [hlength'] at hfill
    rw [restyle_eq_fill hstyle, htokens, ← hfill]
    exact congrArg (fill _) heq
  have hcount : count (restyle style t) = 0 := by
    rw [hrestyled]
    exact countFrom_weave hstretches (fun mark hm => ⟨(hmarks mark hm).1 _, (hmarks mark hm).2⟩)
      (by rw [hsize, hlength'])
  refine ⟨first, rest, hstretches, heq, hlength', hrestyled, fun m hm k _ => ?_, ?_, hcount,
    restyle_of_count hcount⟩
  · have := hhighest.le m hm
    omega
  · intro n stretch hn s _
    have hlt : n < rest.length := (List.getElem?_eq_some_iff.mp hn).1
    have hshort : (rest.take n ++ [s]).length ≤ count t := by
      rw [List.length_append, List.length_take, List.length_singleton]
      omega
    rw [after_weave (fun mark hm => (hmarks mark hm).1) (by rwa [hsize]),
      after_weave (fun mark hm q => ?_) (by rwa [List.length_replicate])]
    rw [List.eq_of_mem_replicate hm]
    cases q <;> rfl

/-- Quotations of every kind, one with marks doubled in it and one left open. -/
def mixedQuotes : Text :=
  "a = $7 AND b = ? AND c = '?$9'' ?' AND d = \"`?\" AND e = ? AND f = `'?` OR g = '?".toList

example : restyle .dollar mixedQuotes =
    "a = $7 AND b = $8 AND c = '?$9'' ?' AND d = \"`?\" AND e = $9 AND f = `'?` OR g = '?".toList := by
  decide +kernel

theorem restyle_exact_mixedQuotes :
    PlaceholderStyle.marker? .dollar = some ['$'] ∧
      ∃ first rest, 7 + count mixedQuotes < UInt64.size ∧ IsHighest ['$'] mixedQuotes 7 ∧
        Restyled ['$'] 7 mixedQuotes (restyle .dollar mixedQuotes) first rest := by
  have hmarker : PlaceholderStyle.marker? .dollar = some ['$'] := rfl
  obtain ⟨-, h, hhighest, hrestyled⟩ := restyle_exact hmarker mixedQuotes
  have hseven : h = 7 := by
    rw [hhighest.eq (isHighest_highest hmarker mixedQuotes)]
    decide +kernel
  subst hseven
  have hfits : 7 + count mixedQuotes < UInt64.size := by decide
  obtain ⟨first, rest, hall⟩ := hrestyled hfits
  exact ⟨hmarker, first, rest, hfits, hhighest, hall⟩

end PagedQuery.Placeholder
