import PagedQuery.Proofs.Literals
import PagedQuery.Proofs.Statement.Limits
import PagedQuery.Proofs.Substitution
import PagedQuery.Proofs.Trace.Shared

/-!
# Orders by rank

An order by rank compares a field with literals. It is made of words that are closed
and show no space, so a keyword can begin at the spaces between them only, and no word
but the field can be one. Such an order binds nothing and has no number. A request
that it is added to has the same statement, count and values, and its page differs in
the order that is put in and in nothing else.
-/
namespace PagedQuery

namespace Keyword

def firstWord (k : Text) : Text := k.tail.takeWhile (· != ' ')

theorem split_firstWord : ∀ k ∈ cuts, k = ' ' :: (firstWord k ++ k.drop (firstWord k).length.succ) ∧
    (k.drop (firstWord k).length.succ).head? = some ' ' := by decide

theorem isUpper_firstWord : ∀ k ∈ cuts, (firstWord k).all Char.isUpper = true := by decide

/-- A keyword is one word, or its second word does not begin as those do with which a case goes on. -/
theorem one_word_or : ∀ k ∈ cuts, k = ' ' :: (firstWord k ++ [' ']) ∨
    ¬(k.drop (firstWord k).length.succ).take 2 <+: " W".toList := by decide

end Keyword

namespace Text

variable {k t w : Text} {ws : List Text} {i : Nat}

/-- Words with a space in front of each. -/
def spaced (words : List Text) : Text := words.flatMap (' ' :: ·)

/-- The text is closed and shows no white space, so that it is one word to a keyword search. -/
structure IsWord (t : Text) : Prop where
  closed : Place.Closed t
  unspaced : ∀ c, Quote.Shows .outside t c → isAsciiSpace c = false

theorem spaced_cons (w : Text) (ws : List Text) : spaced (w :: ws) = ' ' :: w ++ spaced ws := by
  rw [spaced, List.flatMap_cons]
  rfl

theorem spaced_append (ws more : List Text) : spaced (ws ++ more) = spaced ws ++ spaced more :=
  List.flatMap_append

theorem isPlain_of_isUpper {c : Char} (h : c.isUpper = true) : isPlain c = true := by
  rw [isPlain, Bool.not_eq_true']
  refine Bool.eq_false_iff.mpr fun hmem => ?_
  have hall : ['\'', '"', '`', '(', ')'].all (!Char.isUpper ·) = true := by decide
  have hnot := List.all_eq_true.mp hall c (List.contains_iff_mem.mp hmem)
  rw [h] at hnot
  exact absurd hnot (by decide)

theorem eq_of_prefix_word {first more rest : Text} (hfirst : first.all Char.isUpper = true)
    (hw : ∀ c, Quote.Shows .outside w c → isAsciiSpace c = false)
    (h : first ++ ' ' :: more <+: fold w ++ ' ' :: rest) : fold w = first ∧ more <+: rest := by
  -- along both words: a capital leaves the text outside quotes, where it shows no space
  induction w generalizing first with
  | nil =>
    cases first with
    | nil => exact ⟨rfl, (List.cons_prefix_cons.mp h).2⟩
    | cons c first =>
      have hc : c = ' ' := (List.cons_prefix_cons.mp h).1
      rw [hc] at hfirst
      exact absurd hfirst (by simp)
  | cons d w ih =>
    have hshow : Quote.Shows .outside (d :: w) d := Quote.shows_cons.mpr (.inl ⟨rfl, rfl⟩)
    cases first with
    | nil =>
      have hd : ' ' = foldChar d := (List.cons_prefix_cons.mp h).1
      have hspace := (foldChar_eq_space_iff d).mp hd.symm
      rw [hw d hshow] at hspace
      exact absurd hspace (by decide)
    | cons c first =>
      rw [List.all_cons, Bool.and_eq_true] at hfirst
      obtain ⟨hc, hrest⟩ : c = foldChar d ∧ first ++ ' ' :: more <+: fold w ++ ' ' :: rest :=
        List.cons_prefix_cons.mp h
      have hstep : Quote.step .outside d = .outside := by
        rw [← Quote.step_foldChar, ← hc]
        exact Quote.step_of_isPlain (isPlain_of_isUpper hfirst.1) _
      obtain ⟨heq, hmore⟩ := ih hfirst.2 (fun e he => hw e (Quote.shows_cons.mpr
        (.inr (by rwa [hstep])))) hrest
      refine ⟨?_, hmore⟩
      rw [← heq, hc]
      rfl

/-- A keyword among spaced words begins with one of them. -/
theorem Occurs.of_spaced (hk : k ∈ Keyword.cuts) (hws : ∀ w ∈ ws, IsWord w)
    (h : Occurs k (spaced ws ++ [' ']) i) :
    ∃ before w behind, ws = before ++ w :: behind ∧ fold w = Keyword.firstWord k ∧
      k.drop (Keyword.firstWord k).length.succ <+: fold (spaced behind ++ [' ']) := by
  induction ws generalizing i with
  | nil => exact absurd h (not_occurs_space hk)
  | cons w ws ih =>
    have hw := hws w List.mem_cons_self
    rw [spaced_cons, List.append_assoc] at h
    have hrest : ∃ rest, spaced ws ++ [' '] = ' ' :: rest := by
      cases ws with
      | nil => exact ⟨[], rfl⟩
      | cons v vs => exact ⟨_, by rw [spaced_cons, List.append_assoc]; rfl⟩
    obtain ⟨rest, hrest⟩ := hrest
    rcases Nat.lt_or_ge i (' ' :: w).length with hlt | hge
    · cases i with
      | zero =>
        obtain ⟨hsplit, hspace⟩ := Keyword.split_firstWord k hk
        obtain ⟨more, hmore⟩ := List.head?_eq_some_iff.mp hspace
        have hpre : ' ' :: (Keyword.firstWord k ++ ' ' :: more) <+:
            ' ' :: (fold w ++ ' ' :: fold rest) := by
          have h2 := h.2.2
          rw [List.drop_zero, hrest, fold_append] at h2
          rw [hmore] at hsplit
          rw [← hsplit]
          exact h2
        obtain ⟨heq, hbehind⟩ := eq_of_prefix_word (Keyword.isUpper_firstWord k hk) hw.unspaced
          (List.cons_prefix_cons.mp hpre).2
        refine ⟨[], w, ws, rfl, heq, ?_⟩
        rw [hmore, hrest]
        exact List.cons_prefix_cons.mpr ⟨rfl, hbehind⟩
      | succ j =>
        have hj : j < w.length := Nat.lt_of_succ_lt_succ hlt
        have hplace : Place.after .start (w.take j) = .start := by
          have htake := h.2.1
          rwa [List.cons_append, List.take_succ_cons, List.take_append_of_le_length hj.le] at htake
        have hquote : Quote.after .outside (w.take j) = .outside := by
          have := congrArg Place.quote hplace
          rwa [Place.after_quote] at this
        have hspace := h.getElem? hk
        rw [List.cons_append, fold, List.map_cons, List.getElem?_cons_succ, List.getElem?_map,
          List.getElem?_append_left hj, List.getElem?_eq_getElem hj] at hspace
        have hshown : Quote.Shows .outside w w[j] :=
          ⟨w.take j, w.drop (j + 1), by rw [← List.drop_eq_getElem_cons hj,
            List.take_append_drop], hquote⟩
        have hascii := (foldChar_eq_space_iff _).mp (Option.some.inj hspace)
        rw [hw.unspaced _ hshown] at hascii
        exact absurd hascii (by decide)
    · obtain ⟨j, rfl⟩ := Nat.exists_eq_add_of_le hge
      have hstart : Place.after .start (' ' :: w) = .start := hw.closed.1
      obtain ⟨before, v, behind, rfl, heq, hbehind⟩ :=
        ih (fun v hv => hws v (List.mem_cons_of_mem _ hv)) ((occurs_append_right hstart).mp h)
      exact ⟨w :: before, v, behind, rfl, heq, hbehind⟩

theorem closed_spaced (hws : ∀ w ∈ ws, IsWord w) : Place.Closed (spaced ws) := by
  induction ws with
  | nil => exact Place.closed_nil
  | cons w ws ih =>
    have hspace : Place.Closed [' '] := by decide
    rw [spaced_cons]
    exact (hspace.append (hws w List.mem_cons_self).closed).append
      (ih fun v hv => hws v (List.mem_cons_of_mem _ hv))

theorem neutral_spaced {style : PlaceholderStyle}
    (hws : ∀ w ∈ ws, Placeholder.Neutral style w) : Placeholder.Neutral style (spaced ws) := by
  induction ws with
  | nil => exact Trace.neutral_of_isBland rfl
  | cons w ws ih =>
    have hbreak : Placeholder.Breaks (spaced ws) := by
      cases ws with
      | nil => exact Placeholder.breaks_nil
      | cons v vs =>
        rw [spaced_cons]
        exact Placeholder.breaks_of_head? rfl
    have hw : Placeholder.Neutral style ([' '] ++ w) :=
      Trace.neutral_bland_append (by decide) (hws w List.mem_cons_self)
    rw [spaced_cons]
    exact Trace.neutral_append hw (ih fun v hv => hws v (List.mem_cons_of_mem _ hv)) hbreak

theorem isWord_of_all (h : t.all (fun c => isPlain c && !isAsciiSpace c) = true) : IsWord t where
  closed := Place.closed_of_isPlain (List.all_eq_true.mpr fun c hc =>
    (Bool.and_eq_true_iff.mp (List.all_eq_true.mp h c hc)).1)
  unspaced c hc := by
    have := (Bool.and_eq_true_iff.mp (List.all_eq_true.mp h c hc.mem)).2
    rwa [Bool.not_eq_true'] at this

theorem isWord_ofNat (n : Nat) : IsWord (ofNat n) :=
  isWord_of_all (List.all_eq_true.mpr fun c hc => by
    have hdigit := Nat.isDigit_of_mem_toDigits (by decide) (by decide) hc
    rw [isPlain_of_isDigit hdigit, isAsciiSpace_of_isDigit hdigit]
    rfl)

end Text

namespace Literal

theorem isWord_render (v : Value) : Text.IsWord (render v) where
  closed := Place.closed_of_not_shows (closed_render v) fun c hc =>
    not_shows ((by decide : ['(', ')'] ⊆ ['?', '(', ')', '"', '`', '$', '@', ':']) hc)
  unspaced c hc := by
    refine Bool.eq_false_iff.mpr fun hspace => ?_
    have hblank := Text.isBlank_of_isAsciiSpace hspace
    rw [isBlank_of_isShown (isShown_of_shows hc)] at hblank
    exact absurd hblank (by decide)

theorem neutral_render (v : Value) (style : PlaceholderStyle) :
    Placeholder.Neutral style (render v) where
  closed := closed_render v
  count_eq := Placeholder.countFrom_of_not_shows (not_shows (by decide))
  unnumbered := Placeholder.highest_of_not_shows (fun c hc =>
    not_shows ((by decide : ['$', '@', ':'] ⊆ ['?', '(', ')', '"', '`', '$', '@', ':']) hc)) style

theorem foldChar_of_isNumeral {c : Char} (h : Number.isNumeral c = true) :
    (Text.foldChar c).isUpper = false ∨ Text.foldChar c = 'E' := by
  rw [Number.isNumeral, Bool.or_eq_true] at h
  rcases h with hdigit | hsign
  · exact .inl (Text.isUpper_foldChar_of_isDigit hdigit)
  · have hall : ['-', '+', '.', 'e'].all (fun c => (Text.foldChar c).isUpper = false ∨
      Text.foldChar c = 'E') = true := by decide
    exact of_decide_eq_true (List.all_eq_true.mp hall c (List.contains_iff_mem.mp hsign))

/-- No number is the first word of a keyword: these have capitals only, and others than `E`. -/
theorem fold_ne_of_isNumeral {k t : Text} (hk : k ∈ Keyword.cuts)
    (ht : t.all Number.isNumeral = true) : Text.fold t ≠ Keyword.firstWord k := by
  intro he
  have hletter : ∀ k ∈ Keyword.cuts,
      (Keyword.firstWord k).any (fun c => c.isUpper = true ∧ c ≠ 'E') = true := by decide
  obtain ⟨c, hc, hboth⟩ := List.any_eq_true.mp (hletter k hk)
  obtain ⟨hupper, hne⟩ := of_decide_eq_true hboth
  rw [← he] at hc
  obtain ⟨d, hd, rfl⟩ := List.mem_map.mp hc
  rcases foldChar_of_isNumeral (List.all_eq_true.mp ht d hd) with h | h
  · rw [h] at hupper
    exact absurd hupper (by decide)
  · exact hne h

theorem fold_render_ne {k : Text} (hk : k ∈ Keyword.cuts) (v : Value) :
    Text.fold (render v) ≠ Keyword.firstWord k := by
  rcases render_cases v with ⟨t, ht⟩ | hnumeral | hword
  · intro he
    have hmark : '\'' ∈ Keyword.firstWord k := by
      rw [← he, ht]
      exact List.mem_cons_self
    have hupper := List.all_eq_true.mp (Keyword.isUpper_firstWord k hk) _ hmark
    exact absurd hupper (by decide)
  · exact fold_ne_of_isNumeral hk hnumeral
  · have hwords : ∀ w ∈ ["TRUE".toList, "FALSE".toList, "NULL".toList], ∀ k ∈ Keyword.cuts,
      Text.fold w ≠ Keyword.firstWord k := by decide
    exact hwords _ hword k hk

end Literal

namespace SortKeys

open Text (IsWord spaced fold)

variable {field : Text} {values : List Value}

/-- A field name that can be ranked: one closed word that binds nothing, has no number and is no
clause keyword. -/
structure IsField (field : Text) : Prop where
  ne_nil : field ≠ []
  nonblank : ∀ c ∈ field, Text.isBlank c = false
  closed : Place.Closed field
  unbound : Placeholder.count field = 0
  unnumbered : ∀ style, Placeholder.highest style field = 0
  not_keyword : ' ' :: (fold field ++ [' ']) ∉ Keyword.clauses

/-- Each value of the field gets its place in the list for a rank. -/
def caseText (field : Text) (values : List Value) : Text :=
  "CASE ".toList ++ field ++ (values.mapIdx fun rank value =>
    " WHEN ".toList ++ Literal.render value ++ " THEN ".toList ++ Text.ofNat rank).flatten ++
      " END".toList

/-- The words of the arms from a rank on. -/
def armWords (rank : Nat) : List Value → List Text
  | [] => []
  | value :: values =>
    "WHEN".toList :: Literal.render value :: "THEN".toList :: Text.ofNat rank ::
      armWords (rank + 1) values

def caseWords (field : Text) (values : List Value) : List Text :=
  "CASE".toList :: field :: (armWords 0 values ++ ["END".toList])

theorem spaced_arm (value : Value) (rank : Nat) (more : List Text) :
    spaced ("WHEN".toList :: Literal.render value :: "THEN".toList :: Text.ofNat rank :: more) =
      " WHEN ".toList ++ Literal.render value ++ " THEN ".toList ++ Text.ofNat rank ++
        spaced more := by
  have hwhen : " WHEN ".toList = ' ' :: "WHEN".toList ++ [' '] := rfl
  have hthen : " THEN ".toList = ' ' :: "THEN".toList ++ [' '] := rfl
  simp only [Text.spaced_cons, hwhen, hthen, List.append_assoc, List.cons_append, List.nil_append]

theorem spaced_armWords (rank : Nat) (values : List Value) :
    spaced (armWords rank values) = (values.mapIdx fun i value => " WHEN ".toList ++
      Literal.render value ++ " THEN ".toList ++ Text.ofNat (rank + i)).flatten := by
  induction values generalizing rank with
  | nil => rfl
  | cons value values ih =>
    rw [List.mapIdx_cons, List.flatten_cons, armWords, spaced_arm, ih]
    simp only [Nat.add_zero, Nat.add_assoc, Nat.add_comm 1]

theorem spaced_ranks (rank : Nat) (values : List Value) :
    spaced (ranks rank values) = spaced (armWords rank values) := by
  induction values generalizing rank with
  | nil => rfl
  | cons value values ih =>
    have hwhen : " WHEN ".toList = ' ' :: "WHEN ".toList := rfl
    rw [ranks, Text.spaced_cons, ih, armWords, spaced_arm, hwhen]
    simp only [List.append_assoc, List.cons_append]

theorem space_intercalate {words : List Text} (h : words ≠ []) :
    ' ' :: List.intercalate [' '] words = spaced words := by
  induction words with
  | nil => exact absurd rfl h
  | cons w words ih =>
    cases words with
    | nil => simp [spaced, List.intercalate]
    | cons v words =>
      rw [Text.spaced_cons, ← ih (List.cons_ne_nil _ _)]
      simp [List.intercalate]

theorem space_caseText (field : Text) (values : List Value) :
    ' ' :: caseText field values = spaced (caseWords field values) := by
  have hend : spaced ["END".toList] = " END".toList := rfl
  unfold caseText
  rw [caseWords, Text.spaced_cons, Text.spaced_cons, Text.spaced_append, hend,
    spaced_armWords]
  simp only [Nat.zero_add, List.append_assoc, List.cons_append]
  rfl

theorem IsField.trim_eq (h : IsField field) : Text.trim field = field :=
  Text.trim_eq_self_iff.mpr ⟨fun c hc => h.nonblank c (List.mem_of_head? hc),
    fun c hc => h.nonblank c (List.mem_of_getLast? hc)⟩

theorem IsField.isWord (h : IsField field) : IsWord field where
  closed := h.closed
  unspaced c hc := by
    refine Bool.eq_false_iff.mpr fun hspace => ?_
    have hblank := Text.isBlank_of_isAsciiSpace hspace
    rw [h.nonblank c hc.mem] at hblank
    exact absurd hblank (by decide)

theorem IsField.neutral (h : IsField field) (style : PlaceholderStyle) :
    Placeholder.Neutral style field where
  closed := h.closed.quote
  count_eq := h.unbound
  unnumbered := h.unnumbered style

/-- What the setting spells is the case expression of the trimmed field and the values. -/
theorem render_ranked_trim (hfield : Text.trim field ≠ []) (hvalues : values ≠ []) (d : Dialect) :
    (Setting.ranked field values).render d = caseText (Text.trim field) values := by
  have hblank : ¬(Text.isAllBlank field = true ∨ values.isEmpty = true) := by
    rw [Text.isAllBlank_iff, List.isEmpty_iff]
    exact not_or.mpr ⟨hfield, hvalues⟩
  have hranks : ranks 0 values ≠ [] := by
    obtain ⟨value, more, rfl⟩ := List.exists_cons_of_ne_nil hvalues
    exact List.cons_ne_nil _ _
  unfold caseText
  rw [Setting.render, if_neg hblank, space_intercalate hranks, spaced_ranks, spaced_armWords]
  simp only [Nat.zero_add]

theorem render_ranked (hfield : IsField field) (hvalues : values ≠ []) (d : Dialect) :
    (Setting.ranked field values).render d = caseText field values := by
  have hne : Text.trim field ≠ [] := by
    rw [hfield.trim_eq]
    exact hfield.ne_nil
  rw [render_ranked_trim hne hvalues, hfield.trim_eq]

/-- The words of the arms are words to a keyword search, and none of them begins a keyword. -/
theorem mem_armWords {rank : Nat} {w : Text} (h : w ∈ armWords rank values) :
    w ∈ ["WHEN".toList, "THEN".toList] ∨ (∃ value, w = Literal.render value) ∨
      ∃ n, w = Text.ofNat n := by
  induction values generalizing rank with
  | nil => exact absurd h List.not_mem_nil
  | cons value values ih =>
    simp only [armWords, List.mem_cons] at h
    rcases h with rfl | rfl | rfl | rfl | h
    · exact .inl (by decide)
    · exact .inr (.inl ⟨value, rfl⟩)
    · exact .inl (by decide)
    · exact .inr (.inr ⟨rank, rfl⟩)
    · exact ih h

theorem other_caseWords (values : List Value) {w : Text}
    (h : w = "CASE".toList ∨ w ∈ armWords 0 values ++ ["END".toList]) :
    IsWord w ∧ (∀ style, Placeholder.Neutral style w) ∧
      ∀ k ∈ Keyword.cuts, fold w ≠ Keyword.firstWord k := by
  have hfixed : w ∈ ["CASE".toList, "WHEN".toList, "THEN".toList, "END".toList] ∨
      (∃ value, w = Literal.render value) ∨ ∃ n, w = Text.ofNat n := by
    rcases h with rfl | h
    · exact .inl (by decide)
    · rcases List.mem_append.mp h with h | h
      · rcases mem_armWords h with h | h
        · exact .inl ((by decide : ["WHEN".toList, "THEN".toList] ⊆
            ["CASE".toList, "WHEN".toList, "THEN".toList, "END".toList]) h)
        · exact .inr h
      · rw [List.mem_singleton.mp h]
        exact .inl (by decide)
  rcases hfixed with hfixed | ⟨value, rfl⟩ | ⟨n, rfl⟩
  · have hall : ∀ w ∈ ["CASE".toList, "WHEN".toList, "THEN".toList, "END".toList],
        w.all (fun c => Text.isPlain c && !Text.isAsciiSpace c) = true ∧
          w.all Placeholder.isBland = true ∧
          ∀ k ∈ Keyword.cuts, fold w ≠ Keyword.firstWord k := by decide
    obtain ⟨hword, hbland, hne⟩ := hall w hfixed
    exact ⟨Text.isWord_of_all hword, fun _ => Trace.neutral_of_isBland hbland, hne⟩
  · exact ⟨Literal.isWord_render value, Literal.neutral_render value,
      fun k hk => Literal.fold_render_ne hk value⟩
  · exact ⟨Text.isWord_ofNat n, fun _ => Trace.neutral_of_isBland (Placeholder.isBland_ofNat n),
      fun k hk => Literal.fold_ne_of_isNumeral hk (Number.isNumeral_ofNat n)⟩

/-- Every word of a case expression is closed and shows no space, and binds nothing. -/
theorem IsField.caseWords (h : IsField field) (values : List Value) :
    ∀ w ∈ caseWords field values, IsWord w ∧ ∀ style, Placeholder.Neutral style w := by
  intro w hw
  rcases List.mem_cons.mp hw with rfl | hw
  · exact ⟨(other_caseWords values (.inl rfl)).1, (other_caseWords values (.inl rfl)).2.1⟩
  · rcases List.mem_cons.mp hw with rfl | hw
    · exact ⟨h.isWord, h.neutral⟩
    · exact ⟨(other_caseWords values (.inr hw)).1, (other_caseWords values (.inr hw)).2.1⟩

theorem trim_caseText (field : Text) (values : List Value) :
    Text.trim (caseText field values) = caseText field values := by
  refine Text.trim_eq_self_iff.mpr ⟨fun c hc => ?_, fun c hc => ?_⟩
  · have hhead : (caseText field values).head? = some 'C' := rfl
    rw [hhead] at hc
    rw [← Option.some.inj hc]
    decide
  · have hlast : (caseText field values).getLast? = some 'D' := by
      unfold caseText
      rw [List.getLast?_append]
      rfl
    rw [hlast] at hc
    rw [← Option.some.inj hc]
    decide

theorem IsField.not_followed (h : IsField field) (hvalues : values ≠ []) {k : Text}
    (hk : k ∈ Keyword.clauses) (hfirst : fold field = Keyword.firstWord k) :
    ¬k.drop (Keyword.firstWord k).length.succ <+:
      fold (spaced (armWords 0 values ++ ["END".toList]) ++ [' ']) := by
  intro hrest
  rcases Keyword.one_word_or k (Keyword.mem_cuts_of_mem_clauses k hk) with hone | htwo
  · rw [← hfirst] at hone
    exact h.not_keyword (hone ▸ hk)
  · obtain ⟨value, more, rfl⟩ := List.exists_cons_of_ne_nil hvalues
    have hwhen : " W".toList <+:
        fold (spaced (armWords 0 (value :: more) ++ ["END".toList]) ++ [' ']) := ⟨_, rfl⟩
    refine htwo (List.prefix_of_prefix_length_le ((List.take_prefix 2 _).trans hrest) hwhen ?_)
    rw [List.length_take]
    exact Nat.min_le_left _ _

/-- A case expression closes its quotes and parentheses and has no clause keyword. -/
theorem IsField.inert (h : IsField field) (hvalues : values ≠ []) :
    Text.Inert (caseText field values) where
  closed := by
    have hspaced := Text.closed_spaced fun w hw => (h.caseWords values w hw).1
    have hspace : Place.after .start [' '] = .start := rfl
    rw [← space_caseText, ← List.singleton_append, Place.closed_append_iff hspace] at hspaced
    exact hspaced.2
  free k hk := by
    have hcut := Keyword.mem_cuts_of_mem_clauses k hk
    rw [Text.Free, Text.topLevel?_eq_none_iff]
    intro i _ ho
    rw [space_caseText] at ho
    obtain ⟨before, w, behind, hwords, hfirst, hrest⟩ :=
      ho.of_spaced hcut fun w hw => (h.caseWords values w hw).1
    match before with
    | [] =>
      obtain ⟨rfl, -⟩ := List.cons.inj hwords
      exact (other_caseWords values (.inl rfl)).2.2 k hcut hfirst
    | [_] =>
      obtain ⟨rfl, rfl⟩ := List.cons.inj (List.cons.inj hwords).2
      exact h.not_followed hvalues hk hfirst hrest
    | _ :: _ :: before =>
      have hmem : w ∈ armWords 0 values ++ ["END".toList] := by
        rw [(List.cons.inj (List.cons.inj hwords).2).2]
        exact List.mem_append_right _ List.mem_cons_self
      exact (other_caseWords values (.inr hmem)).2.2 k hcut hfirst

theorem IsField.neutral_caseText (h : IsField field) (values : List Value)
    (style : PlaceholderStyle) : Placeholder.Neutral style (caseText field values) := by
  have hspaced := Text.neutral_spaced fun w hw => (h.caseWords values w hw).2 style
  have htrim : Text.trim (' ' :: caseText field values) = Text.trim (caseText field values) :=
    Text.trim_blank_append (u := [' ']) (by decide) _
  rw [← space_caseText] at hspaced
  rw [← trim_caseText, ← htrim]
  exact Trace.neutral_trim hspaced

theorem orderKeys_caseText (field : Text) (values : List Value) :
    Request.orderKeys (caseText field values) = caseText field values := by
  have hnot : Text.upper ((caseText field values).take Request.orderByPrefix.length) ≠
      Request.orderByPrefix := by
    intro he
    have hhead : (Text.upper ((caseText field values).take Request.orderByPrefix.length)).head? =
        some 'C' := rfl
    rw [he] at hhead
    exact absurd hhead (by decide)
  rw [Request.orderKeys, trim_caseText, Request.dropOrderBy, if_neg hnot, trim_caseText]

end SortKeys

end PagedQuery
