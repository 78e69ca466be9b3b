import PagedQuery.Proofs.Statement.Ending
import PagedQuery.Statement.Page

/-!
# Row limits of a page

A text is settled when it has no row limit at the top level, not even with a space
behind it. What stands in front of the limit of a page is settled, and the body of
each clause of the limit is a number with words around it. So the row limits of a
page that the search finds are the clauses of its limit.
-/
namespace PagedQuery

namespace Text

variable {k k' word s t u : Text} {i : Nat}

/-- The text has no row limit, not even with a space behind it. -/
def Settled (t : Text) : Prop := ∀ k ∈ Keyword.rowLimits, ∀ i, ¬Occurs k (t ++ [' ']) i

theorem mem_cuts_of_mem_rowLimits : ∀ k ∈ Keyword.rowLimits, k ∈ Keyword.cuts := by decide

theorem leadsOff_space : LeadsOff [' '] := by
  constructor
  · intro c hc
    exact (Option.some.inj hc).symm
  · intro c hc
    exact absurd hc (by simp [fold])

/-- In a clause with a closed and free body a keyword occurs as its head or behind it. -/
theorem occurs_clause_iff (hk : k ∈ Keyword.cuts) (hk' : k' ∈ Keyword.heads)
    (hs : Place.Closed s) (hfree : Free k s) (ht : LeadsOff t) :
    Occurs k (k' ++ (s ++ t)) i ↔
      k = k' ∧ i = 0 ∨ ∃ j, i = k'.length + s.length + j ∧ Occurs k t j := by
  have hclosed : Place.after .start (k' ++ s) = .start :=
    ((Keyword.closed_of_mem_heads hk').append hs).1
  constructor
  · intro ho
    rcases Nat.lt_or_ge i (k'.length + s.length) with hlt | hge
    · left
      by_contra hne
      exact not_occurs_clause hk hk' hfree ht hlt (by
        by_contra hboth
        exact hne ⟨by_contra fun h => hboth (Or.inr h), by_contra fun h => hboth (Or.inl h)⟩) ho
    · right
      obtain ⟨j, rfl⟩ := Nat.exists_eq_add_of_le hge
      rw [← List.append_assoc, ← List.length_append] at ho
      exact ⟨j, rfl, (occurs_append_right hclosed).mp ho⟩
  · rintro (⟨rfl, rfl⟩ | ⟨j, rfl, ho⟩)
    · refine ⟨?_, rfl, ?_⟩
      · have hlong := Keyword.one_lt_length k hk
        rw [List.length_append]
        omega
      · rw [fold_append, Keyword.fold_of_mem_heads k hk']
        exact List.prefix_append _ _
    · rw [← List.append_assoc, ← List.length_append]
      exact (occurs_append_right hclosed).mpr ho

/-- A settled text with a clause behind it is settled again. -/
theorem Settled.append_clause (hs : Settled s) (hstart : Place.after .start s = .start)
    (hk' : k' ∈ Keyword.cuts) (hnot : k' ∉ Keyword.rowLimits) (ht : Place.Closed t)
    (hfree : ∀ k ∈ Keyword.rowLimits, Free k t) : Settled (s ++ (k' ++ t)) := by
  intro k hk i ho
  have hcut := mem_cuts_of_mem_rowLimits k hk
  rw [List.append_assoc, List.append_assoc] at ho
  rcases Nat.lt_or_ge i s.length with hlt | hge
  · exact hs k hk i (ho.of_seam hcut (leadsOff_keyword hk' _) hlt)
  · obtain ⟨j, rfl⟩ := Nat.exists_eq_add_of_le hge
    have hj := (occurs_append_right hstart).mp ho
    rw [occurs_clause_iff hcut (Keyword.mem_heads_of_mem_cuts hk') ht (hfree k hk) leadsOff_space]
      at hj
    rcases hj with ⟨rfl, -⟩ | ⟨n, -, hn⟩
    · exact hnot hk
    · exact not_occurs_space hcut hn

/-- Without blanks at its end a text is settled that neither has a row limit nor ends in the word of
one. -/
theorem settled_trimEnd (hno : ∀ k ∈ Keyword.rowLimits, ∀ i, ¬Occurs k t i)
    (hends : ∀ word ∈ Keyword.rowLimitWords, ¬EndsIn word t) : Settled (trimEnd t) := by
  intro k hk i ho
  obtain ⟨u, hu, -⟩ := trimEnd_append_blanks t
  obtain ⟨hlt, hp, hpre⟩ := ho
  have hlong := Keyword.one_lt_length k (mem_cuts_of_mem_rowLimits k hk)
  rw [fold_append] at hpre
  have hle : i < (trimEnd t).length := by
    have hlen := hpre.length_le
    rw [List.length_drop, List.length_append, fold_length, fold_length, List.length_singleton]
      at hlen
    omega
  rw [List.drop_append_of_le_length (by rw [fold_length]; omega)] at hpre
  rw [List.take_append_of_le_length (by omega)] at hp
  rcases prefix_append_cases hpre with hin | ⟨hl, htake, hdrop⟩
  · have hfound : Occurs k (trimEnd t) i := ⟨hle, hp, hin⟩
    have hall := hfound.append u
    rw [← hu] at hall
    exact hno k hk i hall
  · rw [Keyword.rowLimits_eq, List.mem_map] at hk
    obtain ⟨word, hword, rfl⟩ := hk
    refine hends word hword ?_
    have hdrop' := hdrop.length_le
    have hlast : ((fold (trimEnd t)).drop i).length = word.length + 1 := by
      simp only [List.length_drop, List.length_cons, List.length_append, List.length_nil,
        fold_length] at hdrop' hl ⊢
      omega
    have heq : (fold (trimEnd t)).drop i = ' ' :: word := by
      rw [← htake, hlast, List.take_succ_cons, List.take_left]
    exact (heq ▸ List.drop_suffix i _ : ' ' :: word <:+ fold (trimEnd t)).trans
      (List.suffix_cons _ _)

theorem free_append_comma (hk : k ∈ Keyword.cuts) (hs : Place.Closed s) (hfree : Free k s)
    (ht : Free k t) : Free k (s ++ (',' :: ' ' :: t)) := by
  refine topLevel?_eq_none_iff.mpr fun i _ ho => ?_
  have hstart : Place.after .start (' ' :: s) = .start := by
    rw [Place.after_cons]
    exact hs.1
  have hsplit : ' ' :: (s ++ (',' :: ' ' :: t)) ++ [' '] =
      ' ' :: s ++ ([','] ++ (' ' :: t ++ [' '])) := by
    simp only [List.cons_append, List.append_assoc, List.nil_append]
  rw [hsplit] at ho
  rcases Nat.lt_or_ge i (' ' :: s).length with hlt | hge
  · obtain ⟨-, hp, hpre⟩ := ho
    rw [List.take_append_of_le_length (by omega)] at hp
    rw [fold_append, List.drop_append_of_le_length (by rw [fold_length]; omega)] at hpre
    rcases prefix_append_cases hpre with hin | ⟨hl, -, hdrop⟩
    · have hfound : Occurs k (' ' :: s) i := ⟨hlt, hp, hin⟩
      exact topLevel?_eq_none_iff.mp hfree i (Nat.zero_le i) (hfound.append [' '])
    · obtain ⟨c, rest, hrest⟩ := List.exists_cons_of_ne_nil
        (show k.drop ((fold (' ' :: s)).drop i).length ≠ [] from
          fun e => absurd (List.drop_eq_nil_iff.mp e) (by omega))
      rw [hrest, fold_append] at hdrop
      have hcomma : c = ',' := (List.cons_prefix_cons.mp hdrop).1
      have hmem : c ∈ k := List.mem_of_mem_drop (hrest ▸ List.mem_cons_self)
      rw [hcomma] at hmem
      exact absurd (Keyword.isUpper_of_mem hk hmem) (by decide)
  · obtain ⟨j, rfl⟩ := Nat.exists_eq_add_of_le hge
    have hj := (occurs_append_right hstart).mp ho
    cases j with
    | zero =>
      have hspace : some ',' = some ' ' := hj.getElem? hk
      exact absurd hspace (by decide)
    | succ n =>
      rw [Nat.add_comm n 1] at hj
      have hn := (occurs_append_right (s := [',']) (by decide)).mp hj
      exact topLevel?_eq_none_iff.mp ht n (Nat.zero_le n) hn

theorem commaSeparated_singleton (key : Text) : SortKeys.commaSeparated [key] = key := by
  rw [SortKeys.commaSeparated, List.intercalate_singleton]

theorem commaSeparated_cons_cons (key next : Text) (keys : List Text) :
    SortKeys.commaSeparated (key :: next :: keys) =
      key ++ (',' :: ' ' :: SortKeys.commaSeparated (next :: keys)) := by
  simp [SortKeys.commaSeparated, List.intercalate]

theorem closed_commaSeparated {keys : List Text} (h : ∀ key ∈ keys, Place.Closed key) :
    Place.Closed (SortKeys.commaSeparated keys) := by
  induction keys with
  | nil => exact Place.closed_nil
  | cons key keys ih =>
    cases keys with
    | nil =>
      rw [commaSeparated_singleton]
      exact h key (by simp)
    | cons next keys =>
      rw [commaSeparated_cons_cons]
      refine (h key (by simp)).append ?_
      exact (Place.closed_of_isPlain (t := ", ".toList) (by decide)).append
        (ih fun key' hkey' => h key' (List.mem_cons_of_mem key hkey'))

theorem free_commaSeparated (hk : k ∈ Keyword.cuts) {keys : List Text}
    (h : ∀ key ∈ keys, Place.Closed key) (hfree : ∀ key ∈ keys, Free k key) :
    Free k (SortKeys.commaSeparated keys) := by
  induction keys with
  | nil =>
    have hall : ∀ k ∈ Keyword.cuts, Free k (SortKeys.commaSeparated []) := by decide
    exact hall k hk
  | cons key keys ih =>
    cases keys with
    | nil =>
      rw [commaSeparated_singleton]
      exact hfree key (by simp)
    | cons next keys =>
      rw [commaSeparated_cons_cons]
      exact free_append_comma hk (h key (by simp)) (hfree key (by simp))
        (ih (fun key' hkey' => h key' (List.mem_cons_of_mem key hkey'))
          fun key' hkey' => hfree key' (List.mem_cons_of_mem key hkey'))

/-- A text without the word has no keyword made of it. -/
theorem free_of_no_word (hword : Capitals word) (ht : Place.Closed t) (h : ∀ i, ¬Word word t i) :
    Free (' ' :: (word ++ [' '])) t := by
  refine topLevel?_eq_none_iff.mpr fun i _ ho => ?_
  have hblank : [' '].all isBlank = true := by decide
  obtain ⟨j, hj⟩ := (exists_word_blanks hword ht.1 hblank hblank).mp ⟨i + 1, word_of_occurs ho⟩
  exact h j hj

theorem isUpper_foldChar_of_isDigit {c : Char} (h : c.isDigit = true) :
    (foldChar c).isUpper = false := by
  have hrange := toNat_of_isDigit h
  rw [foldChar_of_isDigit h, Bool.eq_false_iff]
  intro hupper
  unfold Char.isUpper at hupper
  have hlow : 65 ≤ c.toNat := (of_decide_eq_true hupper).1
  omega

theorem not_word_ofNat (hword : Capitals word) (n : Nat) : ¬Word word (ofNat n) i := by
  rintro ⟨ho, -, -⟩
  have hpos : 0 < word.length := List.length_pos_iff.mpr hword.1
  have hget := ho.getElem?_fold hpos
  have hlt : i < (ofNat n).length := ho.1
  rw [Nat.add_zero, fold, List.getElem?_map, List.getElem?_eq_getElem hlt,
    List.getElem?_eq_getElem hpos, Option.map_some, Option.some_inj] at hget
  have hupper := List.all_eq_true.mp hword.2 _ (List.getElem_mem hpos)
  have hdigit : (ofNat n)[i].isDigit = true :=
    Nat.isDigit_of_mem_toDigits (by decide) (by decide) (List.getElem_mem hlt)
  rw [← hget, isUpper_foldChar_of_isDigit hdigit] at hupper
  exact absurd hupper (by decide)

theorem closed_ofNat (n : Nat) : Place.Closed (ofNat n) :=
  Place.closed_of_isPlain (List.all_eq_true.mpr fun _ hc =>
    isPlain_of_isDigit (Nat.isDigit_of_mem_toDigits (by decide) (by decide) hc))

theorem not_word_append (hword : Capitals word) (hs : Place.Closed s) (happ : Apart s t)
    (hs' : ∀ i, ¬Word word s i) (ht' : ∀ i, ¬Word word t i) : ∀ i, ¬Word word (s ++ t) i := by
  intro i h
  rcases (word_append hword hs.1 happ).mp h with h | ⟨j, -, h⟩
  · exact hs' i h
  · exact ht' j h

/-- Some row limits in a row, each a keyword and a free body, are all row limits behind a settled
text. -/
theorem Settled.occurs_clauses_iff {front k₁ b₁ k₂ b₂ behind : Text} (hsettled : Settled front)
    (hfront : Place.after .start front = .start) (h₁ : k₁ ∈ Keyword.rowLimits)
    (h₂ : k₂ ∈ Keyword.rowLimits) (hb₁ : Place.Closed b₁) (hb₂ : Place.Closed b₂)
    (hfree₁ : ∀ k ∈ Keyword.rowLimits, Free k b₁) (hfree₂ : ∀ k ∈ Keyword.rowLimits, Free k b₂)
    (hlead : LeadsOff behind) (hno : ∀ k ∈ Keyword.rowLimits, ∀ i, ¬Occurs k behind i)
    (hk : k ∈ Keyword.rowLimits) :
    Occurs k (front ++ (k₁ ++ (b₁ ++ (k₂ ++ (b₂ ++ behind))))) i ↔
      ∃ j, (k, j) ∈ [(k₁, 0), (k₂, k₁.length + b₁.length)] ∧ i = front.length + j := by
  have hcut := mem_cuts_of_mem_rowLimits k hk
  have hcut₁ := mem_cuts_of_mem_rowLimits k₁ h₁
  have hcut₂ := mem_cuts_of_mem_rowLimits k₂ h₂
  have hsecond : ∀ {n}, Occurs k (k₂ ++ (b₂ ++ behind)) n ↔ k = k₂ ∧ n = 0 := by
    intro n
    rw [occurs_clause_iff hcut (Keyword.mem_heads_of_mem_cuts hcut₂) hb₂ (hfree₂ k hk) hlead]
    constructor
    · rintro (h | ⟨j, -, hj⟩)
      · exact h
      · exact absurd hj (hno k hk j)
    · exact Or.inl
  have hboth : ∀ {n}, Occurs k (k₁ ++ (b₁ ++ (k₂ ++ (b₂ ++ behind)))) n ↔
      (k, n) ∈ [(k₁, 0), (k₂, k₁.length + b₁.length)] := by
    intro n
    rw [occurs_clause_iff hcut (Keyword.mem_heads_of_mem_cuts hcut₁) hb₁ (hfree₁ k hk)
      (leadsOff_keyword hcut₂ _)]
    simp only [hsecond, List.mem_cons, Prod.mk.injEq, List.not_mem_nil, or_false]
    constructor
    · rintro (h | ⟨j, rfl, hkey, rfl⟩)
      · exact Or.inl h
      · exact Or.inr ⟨hkey, rfl⟩
    · rintro (h | ⟨hkey, rfl⟩)
      · exact Or.inl h
      · exact Or.inr ⟨0, rfl, hkey, rfl⟩
  constructor
  · intro ho
    rcases Nat.lt_or_ge i front.length with hlt | hge
    · exact absurd (ho.of_seam hcut (leadsOff_keyword hcut₁ _) hlt) (hsettled k hk i)
    · obtain ⟨j, rfl⟩ := Nat.exists_eq_add_of_le hge
      exact ⟨j, hboth.mp ((occurs_append_right hfront).mp ho), rfl⟩
  · rintro ⟨j, hj, rfl⟩
    exact (occurs_append_right hfront).mpr (hboth.mpr hj)

end Text

namespace Statement

open Text (Occurs Settled Free LeadsOff Word EndsIn)

variable {d : Dialect} {k t front behind : Text} {i : Nat} {keys : List Text}

/-- The row limits of the clause that cuts out a window, each with its place in the clause. -/
def limitKeywords (limit : LimitSyntax) (w : Window) : List (Text × Nat) :=
  match limit with
  | .limitOffset =>
    [(Keyword.limit, 0), (Keyword.offset, Keyword.limit.length + (word w.pageSize).length)]
  | .offsetFetch =>
    [(Keyword.offset, 0),
      (Keyword.fetch, Keyword.offset.length + (word w.offset ++ " ROWS".toList).length)]
  | .rowNum => []

theorem capitals_of_mem_rowLimitWords :
    ∀ word ∈ Keyword.rowLimitWords, Text.Capitals word := by decide

theorem free_rowLimits (ht : Place.Closed t)
    (h : ∀ word ∈ Keyword.rowLimitWords, ∀ i, ¬Word word t i) :
    ∀ k ∈ Keyword.rowLimits, Free k t := by
  intro k hk
  rw [Keyword.rowLimits_eq, List.mem_map] at hk
  obtain ⟨word, hword, rfl⟩ := hk
  exact Text.free_of_no_word (capitals_of_mem_rowLimitWords word hword) ht (h word hword)

theorem not_word_of_decided (h : ∀ word ∈ Keyword.rowLimitWords, ∀ i < t.length, ¬Occurs word t i) :
    ∀ word ∈ Keyword.rowLimitWords, ∀ i, ¬Word word t i :=
  fun word hword i hi => h word hword i hi.1.1 hi.1

theorem bounds_space : Text.Bounds (some ' ') := Text.bounds_of_isBlank (by decide)

theorem not_word_rows (n : UInt64) :
    ∀ word ∈ Keyword.rowLimitWords, ∀ i, ¬Word word (Statement.word n ++ " ROWS".toList) i := by
  intro word hword
  have hcapitals := capitals_of_mem_rowLimitWords word hword
  exact Text.not_word_append hcapitals (Text.closed_ofNat _) (Or.inr bounds_space)
    (fun _ => Text.not_word_ofNat hcapitals _) (not_word_of_decided (by decide) word hword)

theorem not_word_next (n : UInt64) :
    ∀ word ∈ Keyword.rowLimitWords, ∀ i,
      ¬Word word ("NEXT ".toList ++ Statement.word n ++ " ROWS ONLY".toList) i := by
  intro word hword
  have hcapitals := capitals_of_mem_rowLimitWords word hword
  have hopen : Place.Closed "NEXT ".toList := by decide
  have hfront : ∀ i, ¬Word word ("NEXT ".toList ++ Statement.word n) i :=
    Text.not_word_append hcapitals hopen (Or.inl bounds_space)
      (not_word_of_decided (by decide) word hword) (fun _ => Text.not_word_ofNat hcapitals _)
  exact Text.not_word_append hcapitals (hopen.append (Text.closed_ofNat _)) (Or.inr bounds_space)
    hfront (not_word_of_decided (by decide) word hword)

/-- The row limits of a page are those of its clause, between a settled text and one without any. -/
theorem occurs_limited_iff {limit : LimitSyntax} (w : Window) (hsettled : Settled front)
    (hfront : Place.after .start front = .start) (hlead : LeadsOff behind)
    (hno : ∀ k ∈ Keyword.rowLimits, ∀ i, ¬Occurs k behind i) (hlimit : limit ≠ .rowNum)
    (hk : k ∈ Keyword.rowLimits) :
    Occurs k (limited limit w front behind) i ↔
      ∃ j, (k, j) ∈ limitKeywords limit w ∧ i = front.length + j := by
  have hdigits : ∀ n : UInt64, Place.Closed (word n) := fun n => Text.closed_ofNat _
  have hnumber : ∀ n : UInt64, ∀ k ∈ Keyword.rowLimits, Free k (word n) := fun n =>
    free_rowLimits (hdigits n) fun word hword _ =>
      Text.not_word_ofNat (capitals_of_mem_rowLimitWords word hword) _
  cases limit with
  | rowNum => exact absurd rfl hlimit
  | limitOffset =>
    have hsplit : limited .limitOffset w front behind =
        front ++ (Keyword.limit ++ (word w.pageSize ++ (Keyword.offset ++
          (word w.offset ++ behind)))) := by
      unfold limited Keyword.limit Keyword.offset
      simp only [List.append_assoc]
    rw [hsplit]
    exact hsettled.occurs_clauses_iff hfront (by decide) (by decide) (hdigits _) (hdigits _)
      (hnumber _) (hnumber _) hlead hno hk
  | offsetFetch =>
    have hsplit : limited .offsetFetch w front behind =
        front ++ (Keyword.offset ++ ((word w.offset ++ " ROWS".toList) ++ (Keyword.fetch ++
          (("NEXT ".toList ++ word w.pageSize ++ " ROWS ONLY".toList) ++ behind)))) := by
      have hmiddle : " ROWS FETCH NEXT ".toList =
          " ROWS".toList ++ (" FETCH ".toList ++ "NEXT ".toList) := by decide
      unfold limited Keyword.offset Keyword.fetch
      simp only [hmiddle, List.append_assoc]
    have hrows : Place.Closed (word w.offset ++ " ROWS".toList) := (hdigits _).append (by decide)
    have hnext : Place.Closed ("NEXT ".toList ++ word w.pageSize ++ " ROWS ONLY".toList) :=
      ((by decide : Place.Closed "NEXT ".toList).append (hdigits _)).append (by decide)
    rw [hsplit]
    exact hsettled.occurs_clauses_iff hfront (by decide) (by decide) hrows hnext
      (free_rowLimits hrows (not_word_rows _)) (free_rowLimits hnext (not_word_next _)) hlead hno hk

theorem not_occurs_derivedTable (ht : Place.Closed t) {tableAlias : Text}
    (halias : Text.IsBody tableAlias) (hk : k ∈ Keyword.clauses) (hne : k ≠ Keyword.fromClause) :
    ¬Occurs k (selectAll (d.derivedTable t tableAlias) ++ [' ']) i := by
  have hcut := Keyword.mem_cuts_of_mem_clauses k hk
  have hbody := Text.isBody_derivedTable d ht halias
  generalize d.derivedTable t tableAlias = body at hbody
  intro ho
  have hopen : "SELECT * FROM ".toList = Keyword.select ++ (['*'] ++ Keyword.fromClause) := by
    decide
  have hstar : ∀ k ∈ Keyword.cuts, Free k ['*'] := by decide
  have hselect : ∀ k ∈ Keyword.cuts, k ≠ Keyword.select := by decide
  unfold selectAll at ho
  rw [hopen, List.append_assoc, List.append_assoc, List.append_assoc,
    Text.occurs_clause_iff hcut (by decide) (by decide) (hstar k hcut)
      (Text.leadsOff_keyword (by decide) _)] at ho
  rcases ho with ⟨heq, -⟩ | ⟨j, -, ho⟩
  · exact hselect k hcut heq
  · rw [Text.occurs_clause_iff hcut (by decide) hbody.closed (hbody.inert.free k hk)
      Text.leadsOff_space] at ho
    rcases ho with ⟨heq, -⟩ | ⟨n, -, hn⟩
    · exact hne heq
    · exact Text.not_occurs_space hcut hn

theorem settled_derivedTable (ht : Place.Closed t) :
    Settled (selectAll (d.derivedTable t pageAlias)) := by
  have hclauses : ∀ k ∈ Keyword.rowLimits, k ∈ Keyword.clauses ∧ k ≠ Keyword.fromClause := by decide
  exact fun k hk _ => not_occurs_derivedTable ht (by decide) (hclauses k hk).1 (hclauses k hk).2

theorem trimEnd_derivedTable (d : Dialect) (t : Text) :
    Text.trimEnd (selectAll (d.derivedTable t pageAlias)) =
      selectAll (d.derivedTable t pageAlias) := by
  have hname : Text.trimEnd (d.derivedName pageAlias) = d.derivedName pageAlias := by
    cases d <;> decide
  have hne : Text.trimEnd (d.derivedName pageAlias) ≠ [] := by
    cases d <;> decide
  have htable : Text.trimEnd (d.derivedTable t pageAlias) = d.derivedTable t pageAlias := by
    unfold Dialect.derivedTable
    rw [Text.trimEnd_append _ hne, hname]
  have hne' : Text.trimEnd (d.derivedTable t pageAlias) ≠ [] := by
    rw [htable]
    exact List.cons_ne_nil _ _
  unfold selectAll
  rw [Text.trimEnd_append _ hne', htable]

theorem addedOrder_closed (d : Dialect) (hasOrder : Bool)
    (h : ∀ key ∈ keys, Place.Closed key) : Place.Closed (addedOrder d hasOrder keys) := by
  unfold addedOrder
  split
  · exact Place.closed_nil
  split
  · split
    · decide
    · exact Place.closed_nil
  · exact (Keyword.closed_of_mem_heads (by decide)).append (Text.closed_commaSeparated h)

/-- Order keys do not unsettle what they are put behind. -/
theorem settled_append_addedOrder (d : Dialect) (hasOrder : Bool) (hsettled : Settled front)
    (hfront : Place.after .start front = .start) (h : ∀ key ∈ keys, Place.Closed key)
    (hfree : ∀ key ∈ keys, ∀ k ∈ Keyword.rowLimits, Free k key) :
    Settled (front ++ addedOrder d hasOrder keys) := by
  have hnil : Settled (front ++ []) := by rwa [List.append_nil]
  unfold addedOrder
  split
  · exact hnil
  split
  · split
    · exact hsettled.append_clause hfront (by decide) (by decide) (by decide) (by decide)
    · exact hnil
  · exact hsettled.append_clause hfront (by decide) (by decide) (Text.closed_commaSeparated h)
      fun k hk => Text.free_commaSeparated (Text.mem_cuts_of_mem_rowLimits k hk) h
        fun key hkey => hfree key hkey k hk

end Statement

end PagedQuery
