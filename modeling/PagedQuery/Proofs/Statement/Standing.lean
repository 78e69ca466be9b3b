import PagedQuery.Proofs.Lexical.Word
import PagedQuery.Proofs.Statement.Ending
import PagedQuery.Proofs.Substitution

/-!
# Sources that stand by themselves

A source stands by itself when it has no blanks and semicolons around it and ends in
no keyword. A profile reads a source with blanks and semicolons around it as it reads
the source, unless a blank that is no ASCII white space hides the first word of a whole
statement. Trimming takes off one row of semicolons, between blanks, so that semicolons
that stand apart are left over.
-/
namespace PagedQuery

namespace Text

variable {k l x y z s t : Text} {c d : Char}

def surrounds (c : Char) : Bool := isBlank c || c = ';'

/-- Blanks, semicolons and blanks again make up the text. -/
def Together (t : Text) : Prop :=
  ∃ u v w, t = u ++ v ++ w ∧ u.all isBlank = true ∧ v.all (· = ';') = true ∧
    w.all isBlank = true

theorem eq_of_straddle (h : k ++ [d] = x ++ y) (hy : y ≠ []) (hlast : k.getLast? = some c)
    (hz : c ∉ z) (hyz : y <+: z) : x = k := by
  obtain ⟨y', e, rfl⟩ := List.eq_nil_or_concat' y |>.resolve_left hy
  rw [← List.append_assoc] at h
  obtain ⟨rfl, -⟩ := List.append_inj' h rfl
  cases hy' : y'.getLast? with
  | none => rw [List.getLast?_eq_none_iff.mp hy', List.append_nil]
  | some e' =>
    rw [List.getLast?_append, hy', Option.some_or, Option.some_inj] at hlast
    have hmem : e' ∈ y' := List.mem_of_getLast? hy'
    exact absurd (hyz.subset (List.mem_append_left _ (hlast ▸ hmem))) hz

theorem isPrefix_append_iff (hlast : k.getLast? = some c) (hz : c ∉ z) (hx : k ≠ x) :
    k ++ [d] <+: x ++ z ↔ k ++ [d] <+: x := by
  constructor
  · intro h
    rcases prefix_append_cases h with h | ⟨hlt, htake, hdrop⟩
    · exact h
    · have hsplit := (List.take_append_drop x.length (k ++ [d])).symm
      rw [htake] at hsplit
      have hne : (k ++ [d]).drop x.length ≠ [] := by
        rw [Ne, List.drop_eq_nil_iff]
        omega
      exact absurd (eq_of_straddle hsplit hne hlast hz hdrop).symm hx
  · intro h
    exact h.trans (List.prefix_append x z)

theorem isInfix_append_iff (hlast : k.getLast? = some c) (hz : c ∉ z) (hx : ¬k <:+ x) :
    k ++ [d] <:+: x ++ z ↔ k ++ [d] <:+: x := by
  constructor
  · intro h
    rcases List.infix_append_iff.mp h with h | h | ⟨u, v, huv, hu, hv⟩
    · exact h
    · have hmem : c ∈ k ++ [d] := List.mem_append_left _ (List.mem_of_getLast? hlast)
      exact absurd (h.subset hmem) hz
    · by_cases hnil : v = []
      · rw [huv, hnil, List.append_nil]
        exact hu.isInfix
      · exact absurd (eq_of_straddle huv hnil hlast hz hv ▸ hu) hx
  · intro h
    exact h.trans (List.prefix_append x z).isInfix

theorem isInfix_append_right_iff (h : d ∈ x → c ∉ x ∧ ¬c :: k <+: y) :
    d :: c :: k <:+: x ++ y ↔ d :: c :: k <:+: y := by
  constructor
  · intro hin
    rcases List.infix_append_iff.mp hin with hx | hy | ⟨u, v, huv, hu, hv⟩
    · have hd : d ∈ x := hx.subset List.mem_cons_self
      exact absurd (hx.subset (List.mem_cons_of_mem _ List.mem_cons_self)) (h hd).1
    · exact hy
    · match u with
      | [] => exact (huv ▸ hv : d :: c :: k <+: y).isInfix
      | [e] =>
        obtain ⟨rfl, rfl⟩ := List.cons.inj huv
        exact absurd hv (h (hu.subset List.mem_cons_self)).2
      | e :: e' :: u =>
        obtain ⟨rfl, htail⟩ := List.cons.inj huv
        obtain ⟨rfl, -⟩ := List.cons.inj htail
        exact absurd (hu.subset (List.mem_cons_of_mem _ List.mem_cons_self))
          (h (hu.subset List.mem_cons_self)).1
  · intro hin
    exact hin.trans (List.suffix_append x y).isInfix

/-- Folding makes no capital and no parenthesis of what may stand around a source. -/
theorem not_mem_fold_of_surrounds (hz : z.all surrounds = true) (hc : c.isUpper = true ∨ c = '(') :
    c ∉ fold z := by
  intro hmem
  obtain ⟨e, he, rfl⟩ := List.mem_map.mp hmem
  have hsurrounds : isBlank e = true ∨ e = ';' := by
    have := List.all_eq_true.mp hz e he
    rwa [surrounds, Bool.or_eq_true, decide_eq_true_eq] at this
  rcases hc with hupper | hparen
  · have hidentifier := isIdentifier_of_isUpper hupper
    rcases hsurrounds with hblank | rfl
    · exact not_bounds_iff.mpr hidentifier (bounds_of_isBlank hblank)
    · exact absurd hidentifier (by decide +kernel)
  · rw [foldChar_eq_iff (by decide) (by decide)] at hparen
    subst hparen
    exact absurd hsurrounds (by decide)

theorem all_surrounds_of_isBlank (ht : t.all isBlank = true) : t.all surrounds = true := by
  rw [List.all_eq_true] at ht ⊢
  intro c hc
  rw [surrounds, ht c hc, Bool.true_or]

theorem dropWhile_fold_append (hs : trim s = s) (hne : s ≠ []) (t : Text) :
    (fold s ++ t).dropWhile (· = ' ') = fold s ++ t := by
  obtain ⟨c, u, rfl⟩ := List.exists_cons_of_ne_nil hne
  have hblank := (trim_eq_self_iff.mp hs).1 c rfl
  have hspace : foldChar c ≠ ' ' := by
    intro he
    rw [foldChar_eq_space_iff] at he
    rw [isBlank_of_isAsciiSpace he] at hblank
    exact absurd hblank (by decide)
  exact List.dropWhile_cons_of_neg (by simpa using hspace)

theorem startsWith_append_iff (hs : trim s = s) (hne : s ≠ []) (token t : Text) :
    startsWith token (s ++ t) = true ↔ token <+: fold s ++ fold t := by
  rw [startsWith, fold_append, dropWhile_fold_append hs hne, List.isPrefixOf_iff_prefix]

theorem startsWith_iff (hs : trim s = s) (hne : s ≠ []) (token : Text) :
    startsWith token s = true ↔ token <+: fold s := by
  have h := startsWith_append_iff hs hne token []
  rwa [List.append_nil, show fold [] = [] from rfl, List.append_nil] at h

theorem startsWith_ascii_append (hx : x.all isAsciiSpace = true) (token t : Text) :
    startsWith token (x ++ t) = startsWith token t := by
  have hfold : ∀ c ∈ fold x, decide (c = ' ') = true := by
    intro c hc
    obtain ⟨e, he, rfl⟩ := List.mem_map.mp hc
    exact decide_eq_true ((foldChar_eq_space_iff e).mpr (List.all_eq_true.mp hx e he))
  rw [startsWith, startsWith, fold_append, List.dropWhile_append_of_pos hfold]

/-- Any other blank in front of a text is not skipped, and no word begins with it. -/
theorem startsWith_blank_append (hx : x.all isBlank = true) (hnot : x.all isAsciiSpace = false)
    (hupper : c.isUpper = true) (t : Text) : startsWith (c :: k) (x ++ t) = false := by
  induction x with
  | nil => exact absurd hnot (by decide)
  | cons e x ih =>
    rw [List.all_cons, Bool.and_eq_true] at hx
    by_cases he : isAsciiSpace e = true
    · rw [List.all_cons, he, Bool.true_and] at hnot
      have hskip := startsWith_ascii_append (x := [e]) (by simpa using he) (c :: k) (x ++ t)
      rw [List.cons_append]
      exact hskip.trans (ih hx.2 hnot)
    · have hne : foldChar e ≠ ' ' := fun h => he ((foldChar_eq_space_iff e).mp h)
      have hce : c ≠ foldChar e := by
        rintro rfl
        exact not_mem_fold_of_surrounds (z := [e]) (all_surrounds_of_isBlank (by simpa using hx.1))
          (.inl hupper) List.mem_cons_self
      have hdrop : (fold (e :: x ++ t)).dropWhile (· = ' ') = foldChar e :: fold (x ++ t) :=
        List.dropWhile_cons_of_neg (by simpa using hne)
      rw [startsWith, hdrop, Bool.eq_false_iff, Ne, List.isPrefixOf_iff_prefix,
        List.cons_prefix_cons]
      exact fun h => hce h.1

theorem trimEndBy_append_of_eq {drop : Char → Bool} (hs : trimEndBy drop s = s) (t : Text) :
    trimEndBy drop (s ++ t) = s ++ trimEndBy drop t := by
  by_cases ht : trimEndBy drop t = []
  · obtain ⟨u, hu, hall⟩ := trimEndBy_append_all drop t
    rw [ht, List.nil_append] at hu
    have hdrop : ∀ c ∈ t.reverse, drop c = true := by
      intro c hc
      rw [List.mem_reverse, hu] at hc
      exact List.all_eq_true.mp hall c hc
    rw [ht, List.append_nil, trimEndBy, List.reverse_append, List.dropWhile_append_of_pos hdrop]
    exact hs
  · exact trimEndBy_append drop s ht

theorem trimEndBy_eq_nil_iff {drop : Char → Bool} : trimEndBy drop t = [] ↔ t.all drop = true := by
  rw [trimEndBy, List.reverse_eq_nil_iff, List.dropWhile_eq_nil_iff, List.all_eq_true]
  exact forall_congr' fun c => by rw [List.mem_reverse]

/-- What is not trimmed off the text behind a source. -/
def leftover (t : Text) : Text := trimEnd (trimEndBy (· = ';') (trimEnd t))

theorem leftover_eq_nil_iff : leftover t = [] ↔ Together t := by
  rw [leftover, trimEnd, trimEndBy_eq_nil_iff]
  constructor
  · intro h
    obtain ⟨w, hw, hwall⟩ := trimEnd_append_blanks t
    obtain ⟨v, hv, hvall⟩ := trimEndBy_append_all (· = ';') (trimEnd t)
    exact ⟨trimEndBy (· = ';') (trimEnd t), v, w, by rw [← hv, ← hw], h, hvall, hwall⟩
  · rintro ⟨u, v, w, rfl, hu, hv, hw⟩
    have hvw : trimEnd (u ++ v ++ w) = trimEnd (u ++ v) := trimEnd_append_of_isBlank _ hw
    rw [hvw]
    by_cases hnil : v = []
    · have hblank : trimEnd u = [] := trimEndBy_eq_nil_iff.mpr hu
      rw [hnil, List.append_nil, hblank]
      rfl
    · have hlast : ∀ {c}, (u ++ v).getLast? = some c → isBlank c = false := by
        intro c hc
        rw [List.getLast?_append_of_ne_nil _ hnil] at hc
        have hmem := List.all_eq_true.mp hv c (List.mem_of_getLast? hc)
        rw [of_decide_eq_true hmem]
        decide
      have hkeep : trimEnd (u ++ v) = u ++ v := trimEndBy_eq_self fun c hc => hlast hc
      have hpre : trimEndBy (· = ';') (u ++ v) <+: u := by
        rw [trimEndBy, List.reverse_append, List.dropWhile_append_of_pos]
        · exact trimEndBy_prefix _ u
        · exact fun c hc => List.all_eq_true.mp hv c (List.mem_reverse.mp hc)
      rw [hkeep, List.all_eq_true]
      exact fun c hc => List.all_eq_true.mp hu c (hpre.subset hc)

theorem mem_leftover (ht : t.all surrounds = true) (hne : leftover t ≠ []) : ';' ∈ leftover t := by
  obtain ⟨u, c, hc⟩ := (List.eq_nil_or_concat' (leftover t)).resolve_left hne
  have hmem : c ∈ leftover t := by
    rw [hc]
    exact List.mem_append_right _ List.mem_cons_self
  have hsurrounds : surrounds c = true := by
    have hinner : trimEndBy (· = ';') (trimEnd t) <+: t :=
      (Text.trimEndBy_prefix _ _).trans (Text.trimEnd_prefix t)
    have hpre : leftover t <+: t := (Text.trimEnd_prefix _).trans hinner
    exact List.all_eq_true.mp ht c (hpre.subset hmem)
  have hblank : isBlank c = false := by
    have hend := trimEnd_trimEnd (trimEndBy (· = ';') (trimEnd t))
    change trimEnd (leftover t) = leftover t at hend
    refine Bool.eq_false_iff.mpr fun hblank => ?_
    rw [hc, trimEnd_append_of_isBlank u (by simpa using hblank)] at hend
    have hlength := (Text.trimEnd_prefix u).length_le
    rw [hend, List.length_append] at hlength
    exact absurd hlength (by simp)
  rw [surrounds, hblank, Bool.false_or, decide_eq_true_eq] at hsurrounds
  exact hsurrounds ▸ hmem

end Text

namespace Profile

open Text (surrounds fold mentions startsWith)

/-- The words that a profile looks for and a plan depends on, each with the space behind it and
what must stand in front. -/
def tokens : List Text :=
  [" SELECT ".toList, " WITH ".toList, " FROM ".toList, " GROUP BY ".toList, " HAVING ".toList,
    " DISTINCT ".toList] ++ joinWords ++ setOperations ++ subqueryOpenings

/-- The profiles agree in what a plan depends on. -/
structure Agree (p q : Profile) : Prop where
  hasSelect_eq : p.hasSelect = q.hasSelect
  hasFrom_eq : p.hasSelect = true → p.hasFrom = q.hasFrom
  hasSetOperation_eq : p.hasSetOperation = q.hasSetOperation
  isComplex_eq : p.isComplex = q.isComplex

/-- The words with which whole statements begin. -/
def statementOpenings : List Text := [" SELECT ".toList, " WITH ".toList]

/-- The words with which sources begin. -/
def openings : List Text := " FROM ".toList :: statementOpenings

theorem split_of_mem_tokens : ∀ token ∈ tokens, token = token.dropLast ++ [' '] ∧
    ∃ c ∈ token.dropLast.getLast?, c.isUpper = true := by
  have hlast : ∀ token ∈ tokens, token = token.dropLast ++ [' '] ∧
      token.dropLast.getLast?.any Char.isUpper = true := by decide
  exact fun token htoken => (hlast token htoken).imp_right (Option.any_eq_true _ _).mp

theorem head_of_mem_tokens : ∀ token ∈ tokens, ∃ c ∈ token.tail.head?,
    token.head? = some '(' ∨ token.head? = some ' ' ∧ c.isUpper = true := by
  have hsecond : ∀ token ∈ tokens, token.tail.head?.any (fun c =>
      token.head? = some '(' ∨ token.head? = some ' ' ∧ c.isUpper = true) = true := by decide
  intro token htoken
  obtain ⟨c, hc, hboth⟩ := (Option.any_eq_true _ _).mp (hsecond token htoken)
  exact ⟨c, hc, of_decide_eq_true hboth⟩

theorem tail_of_mem_tokens : ∀ token ∈ tokens, token.head? = some ' ' →
    token.dropLast = ' ' :: token.tail.dropLast ∧ token.tail = token.tail.dropLast ++ [' '] ∧
      ∃ c ∈ token.tail.dropLast.getLast?, c.isUpper = true := by
  have hlast : ∀ token ∈ tokens, token.head? = some ' ' →
      token.dropLast = ' ' :: token.tail.dropLast ∧ token.tail = token.tail.dropLast ++ [' '] ∧
        token.tail.dropLast.getLast?.any Char.isUpper = true := by decide
  intro token htoken hhead
  obtain ⟨hfront, htail, hupper⟩ := hlast token htoken hhead
  exact ⟨hfront, htail, (Option.any_eq_true _ _).mp hupper⟩

/-- No word but the opening itself can stand where an opening stands. -/
theorem not_prefix_opening : ∀ token ∈ tokens, ∀ opening ∈ openings, token.head? = some ' ' →
    token ≠ opening → ¬token.tail <+: opening.tail ∧ ¬opening.tail <+: token.tail := by decide

end Profile

namespace Statement

open Text (surrounds fold mentions startsWith)

/-- A source that stands by itself: the name of a table, the rest of a statement from its `FROM`,
or a whole statement, with nothing around it and no keyword at its end. -/
structure Standing (s : Text) : Prop where
  trim_eq : Text.trim s = s
  not_semicolon : s.getLast? ≠ some ';'
  form : isTableName s = true ∨ startsWith "FROM ".toList s = true ∨
    (Profile.of s).hasSelect = true
  complete : ∀ token ∈ Profile.tokens, ¬token.dropLast <:+ ' ' :: fold s

variable {s before after token : Text}

theorem Standing.ne_nil (hs : Standing s) : s ≠ [] := by
  rintro rfl
  exact absurd hs.form (by decide)

theorem isTableCharacter_of_isAsciiSpace {c : Char} (h : Text.isAsciiSpace c = true) :
    isTableCharacter c = false := by
  simp only [Text.isAsciiSpace, Bool.or_eq_true, decide_eq_true_eq] at h
  obtain (((rfl | rfl) | rfl) | rfl) | rfl := h <;> decide +kernel

theorem space_not_mem_fold (hs : isTableName s = true) : ' ' ∉ fold s := by
  intro hspace
  obtain ⟨c, hc, hfold⟩ := List.mem_map.mp hspace
  rw [isTableName, Bool.and_eq_true, List.all_eq_true] at hs
  have hchar := hs.2 c hc
  rw [isTableCharacter_of_isAsciiSpace ((Text.foldChar_eq_space_iff c).mp hfold)] at hchar
  exact absurd hchar (by decide)

theorem Standing.mentions_append (hs : Standing s) (ha : after.all surrounds = true)
    (htoken : token ∈ Profile.tokens) : mentions token (s ++ after) = mentions token s := by
  obtain ⟨hsplit, c, hlast, hupper⟩ := Profile.split_of_mem_tokens token htoken
  have hend : ¬token.dropLast <:+ fold s := fun h =>
    hs.complete token htoken (h.trans (List.suffix_cons _ _))
  rw [Bool.eq_iff_iff, mentions, mentions, Text.contains_iff, Text.contains_iff, Text.fold_append,
    hsplit]
  exact Text.isInfix_append_iff hlast (Text.not_mem_fold_of_surrounds ha (.inl hupper)) hend

/-- Nothing that may follow a source completes its first word. -/
theorem Standing.prefix_append_iff (hs : Standing s) (ha : after.all surrounds = true)
    (htoken : token ∈ Profile.tokens) (hhead : token.head? = some ' ') :
    token.tail <+: fold s ++ fold after ↔ token.tail <+: fold s := by
  obtain ⟨hinit, htail, c, hlast, hupper⟩ := Profile.tail_of_mem_tokens token htoken hhead
  have hend : token.tail.dropLast ≠ fold s := by
    intro he
    have hwhole : token.dropLast = ' ' :: fold s := by rw [hinit, he]
    exact hs.complete token htoken (hwhole ▸ List.suffix_refl _)
  rw [htail]
  exact Text.isPrefix_append_iff hlast (Text.not_mem_fold_of_surrounds ha (.inl hupper)) hend

theorem Standing.mentions_between (hs : Standing s) (hb : before.all Text.isBlank = true)
    (ha : after.all surrounds = true) (htoken : token ∈ Profile.tokens)
    (hlead : token.head? = some ' ' → ¬token.tail <+: fold s) :
    mentions token (before ++ s ++ after) = mentions token s := by
  have hb' := Text.all_surrounds_of_isBlank hb
  rw [← hs.mentions_append ha htoken, Bool.eq_iff_iff, mentions, mentions, Text.contains_iff,
    Text.contains_iff, List.append_assoc, Text.fold_append before]
  obtain ⟨c, hc, hparen | ⟨hspace, hupper⟩⟩ := Profile.head_of_mem_tokens token htoken
  · obtain ⟨rest, rfl⟩ := List.head?_eq_some_iff.mp hparen
    obtain ⟨word, rfl⟩ := List.head?_eq_some_iff.mp hc
    exact Text.isInfix_append_right_iff fun hmem =>
      absurd hmem (Text.not_mem_fold_of_surrounds hb' (.inr rfl))
  · obtain ⟨rest, rfl⟩ := List.head?_eq_some_iff.mp hspace
    obtain ⟨word, rfl⟩ := List.head?_eq_some_iff.mp hc
    refine Text.isInfix_append_right_iff fun _ =>
      ⟨Text.not_mem_fold_of_surrounds hb' (.inl hupper), ?_⟩
    rw [Text.fold_append]
    exact (hs.prefix_append_iff ha htoken hspace).not.mpr (hlead hspace)

theorem Standing.exists_opening (hs : Standing s) (hselect : (Profile.of s).hasSelect = true) :
    ∃ opening ∈ Profile.statementOpenings, opening.tail <+: fold s := by
  simp only [Profile.of, Bool.or_eq_true, Text.startsWith_iff hs.trim_eq hs.ne_nil] at hselect
  rcases hselect with hprefix | hprefix
  · exact ⟨" SELECT ".toList, by decide, hprefix⟩
  · exact ⟨" WITH ".toList, by decide, hprefix⟩

theorem Standing.not_tail_prefix (hs : Standing s) (htoken : token ∈ Profile.tokens)
    (hnot : token ∉ Profile.statementOpenings)
    (hfrom : token = " FROM ".toList → (Profile.of s).hasSelect = true)
    (hhead : token.head? = some ' ') : ¬token.tail <+: fold s := by
  intro h
  have hopening : ∀ opening ∈ Profile.openings, token ≠ opening → ¬opening.tail <+: fold s := by
    intro opening hmem hne hprefix
    have hboth := Profile.not_prefix_opening token htoken opening hmem hhead hne
    rcases List.prefix_or_prefix_of_prefix h hprefix with hp | hp
    · exact hboth.1 hp
    · exact hboth.2 hp
  by_cases hselect : (Profile.of s).hasSelect = true
  · obtain ⟨opening, hmem, hprefix⟩ := hs.exists_opening hselect
    refine hopening opening (List.mem_cons_of_mem _ hmem) ?_ hprefix
    rintro rfl
    exact hnot hmem
  · rcases hs.form with htable | hlead | hselect'
    · obtain ⟨-, htail, -⟩ := Profile.tail_of_mem_tokens token htoken hhead
      refine space_not_mem_fold htable (h.subset ?_)
      rw [htail]
      exact List.mem_append_right _ List.mem_cons_self
    · exact hopening " FROM ".toList (by decide) (fun he => hselect (hfrom he))
        ((Text.startsWith_iff hs.trim_eq hs.ne_nil _).mp hlead)
    · exact hselect hselect'

/-- A source still begins with a word behind ASCII white space, and with none behind any other
blank. -/
theorem Standing.startsWith_between (hs : Standing s) (hb : before.all Text.isBlank = true)
    (ha : after.all surrounds = true) {opening : Text} (htoken : ' ' :: opening ∈ Profile.tokens) :
    startsWith opening (before ++ s ++ after) =
      (before.all Text.isAsciiSpace && startsWith opening s) := by
  rw [List.append_assoc]
  by_cases hascii : before.all Text.isAsciiSpace = true
  · rw [Text.startsWith_ascii_append hascii, hascii, Bool.true_and, Bool.eq_iff_iff,
      Text.startsWith_append_iff hs.trim_eq hs.ne_nil, Text.startsWith_iff hs.trim_eq hs.ne_nil]
    exact hs.prefix_append_iff ha htoken rfl
  · obtain ⟨c, hc, hparen | ⟨-, hupper⟩⟩ := Profile.head_of_mem_tokens _ htoken
    · exact absurd (Option.some.inj hparen) (by decide)
    · obtain ⟨rest, rfl⟩ := List.head?_eq_some_iff.mp hc
      rw [Bool.not_eq_true] at hascii
      rw [hascii, Bool.false_and]
      exact Text.startsWith_blank_append hb hascii hupper _

theorem Standing.hasSelect_between (hs : Standing s) (hb : before.all Text.isBlank = true)
    (ha : after.all surrounds = true) :
    (Profile.of (before ++ s ++ after)).hasSelect =
      (before.all Text.isAsciiSpace && (Profile.of s).hasSelect) := by
  simp only [Profile.of, Bool.and_or_distrib_left]
  rw [hs.startsWith_between hb ha (by decide), hs.startsWith_between hb ha (by decide)]

/-- What surrounds a source changes nothing in its profile that matters, unless it hides the first
word of a whole statement. -/
theorem Standing.agree (hs : Standing s) (hb : before.all Text.isBlank = true)
    (ha : after.all surrounds = true)
    (hshown : before.all Text.isAsciiSpace = true ∨ (Profile.of s).hasSelect = false) :
    (Profile.of s).Agree (Profile.of (before ++ s ++ after)) := by
  have hmentions : ∀ token ∈ Profile.tokens.drop 3,
      mentions token (before ++ s ++ after) = mentions token s := by
    intro token hdrop
    have htoken := List.mem_of_mem_drop hdrop
    have hnot : ∀ token ∈ Profile.tokens.drop 3,
        token ∉ Profile.statementOpenings ∧ token ≠ " FROM ".toList := by decide
    obtain ⟨hopening, hfrom⟩ := hnot token hdrop
    exact hs.mentions_between hb ha htoken
      (hs.not_tail_prefix htoken hopening fun he => absurd he hfrom)
  have hany : ∀ words, words ⊆ Profile.tokens.drop 3 →
      Profile.mentionsAny words (before ++ s ++ after) = Profile.mentionsAny words s := by
    intro words hwords
    rw [Profile.mentionsAny, Profile.mentionsAny, Bool.eq_iff_iff, List.any_eq_true,
      List.any_eq_true]
    refine exists_congr fun token => and_congr_right fun htoken => ?_
    rw [hmentions token (hwords htoken)]
  have hselect := hs.hasSelect_between hb ha
  have hcte : startsWith "WITH ".toList (before ++ s ++ after) = startsWith "WITH ".toList s := by
    rw [hs.startsWith_between hb ha (by decide)]
    rcases hshown with hascii | hnone
    · rw [hascii, Bool.true_and]
    · simp only [Profile.of, Bool.or_eq_false_iff] at hnone
      rw [hnone.2, Bool.and_false]
  constructor
  · rw [hselect]
    rcases hshown with h | h <;> simp [h]
  · intro hstatement
    have hfrom : " FROM ".toList.head? = some ' ' → ¬" FROM ".toList.tail <+: fold s :=
      hs.not_tail_prefix (by decide) (by decide) (fun _ => hstatement)
    exact (hs.mentions_between hb ha (by decide) hfrom).symm
  · exact (hany _ (by decide)).symm
  · simp only [Profile.isComplex, Profile.of, hcte, hany Profile.joinWords (by decide),
      hany Profile.setOperations (by decide), hany Profile.subqueryOpenings (by decide),
      hmentions " GROUP BY ".toList (by decide), hmentions " HAVING ".toList (by decide),
      hmentions " DISTINCT ".toList (by decide)]

theorem Standing.bareSource_between (hs : Standing s) (hb : before.all Text.isBlank = true)
    (after : Text) : bareSource (before ++ s ++ after) = s ++ Text.leftover after := by
  have htrim : Text.trimEnd s = s := Text.trimEnd_of_trim hs.trim_eq
  have hsemicolon : Text.trimEndBy (· = ';') s = s := by
    refine Text.trimEndBy_eq_self fun c hc => decide_eq_false ?_
    rintro rfl
    exact hs.not_semicolon hc
  have hfront : (s ++ after).dropWhile Text.isBlank = s ++ after := by
    have hne : s.dropWhile Text.isBlank ≠ [] := by
      rw [Text.dropWhile_isBlank_of_trim hs.trim_eq]
      exact hs.ne_nil
    rw [List.dropWhile_append, if_neg (by simpa using hne), Text.dropWhile_isBlank_of_trim hs.trim_eq]
  have houter : Text.trim (s ++ after) = s ++ Text.trimEnd after := by
    rw [Text.trim_eq_trimEnd, hfront]
    exact Text.trimEndBy_append_of_eq htrim after
  rw [bareSource, List.append_assoc, Text.trim_blank_append hb, houter,
    Text.trimEndBy_append_of_eq hsemicolon]
  exact Text.trimEndBy_append_of_eq htrim _

/-- Behind a whole statement nothing makes the rest of one, or the name of a table, of it. -/
theorem Standing.not_fromLed_of_hasSelect (hs : Standing s)
    (hselect : (Profile.of s).hasSelect = true) (t : Text) :
    startsWith "FROM ".toList (s ++ t) = false ∧ isTableName (s ++ t) = false := by
  have hopenings : ∀ opening ∈ Profile.statementOpenings,
      ' ' ∈ opening.tail ∧ " FROM ".toList ≠ opening := by decide
  obtain ⟨opening, hmem, hbegins⟩ := hs.exists_opening hselect
  obtain ⟨hspace, hne⟩ := hopenings opening hmem
  constructor
  · rw [Bool.eq_false_iff, Ne, Text.startsWith_append_iff hs.trim_eq hs.ne_nil]
    intro hfrom
    have hnot := Profile.not_prefix_opening " FROM ".toList (by decide) opening
      (List.mem_cons_of_mem _ hmem) rfl hne
    rcases List.prefix_or_prefix_of_prefix hfrom (hbegins.trans (List.prefix_append _ _)) with h | h
    · exact hnot.1 h
    · exact hnot.2 h
  · rw [Bool.eq_false_iff]
    intro htable
    refine space_not_mem_fold htable ?_
    rw [Text.fold_append]
    exact List.mem_append_left _ (hbegins.subset hspace)

end Statement

end PagedQuery
