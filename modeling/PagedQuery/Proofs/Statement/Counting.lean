import PagedQuery.Proofs.Statement.Reading
import PagedQuery.Proofs.Statement.Restriction
import PagedQuery.Statement.Count

/-!
# Counts of rows

The count statement counts the rows of the statement it is made of, whichever of
its three shapes it has. An order is left out only where no row limit depends on
it, a derived table has the rows of its query, and a select list is replaced only
in a query that makes one row of each row of its source.
-/
namespace PagedQuery

open Text (IsBody LeadsOff Occurs)

/-- A clause is found behind a closed text. -/
theorem Clause.hasTopLevel_join {c : Clause} {cs : List Clause} {keywords : List Text} {s : Text}
    {start : ℕ} (hs : Place.Closed s) (hc : c.WellFormed) (hk : c.keyword ∈ keywords)
    (hstart : start ≤ s.length) : Text.hasTopLevel keywords start (s ++ join (c :: cs)) = true := by
  have hpre := hc.prefix_join cs
  have hpos : 0 < (join (c :: cs)).length := by
    have hlen := hpre.length_le
    have hne := List.length_pos_iff.mpr (Keyword.ne_nil_of_mem_cuts hc.mem_cuts)
    rw [Text.fold_length] at hlen
    omega
  have hhere : Occurs c.keyword (s ++ join (c :: cs)) (s.length + 0) :=
    (Text.occurs_append_right hs.1).mpr ⟨hpos, rfl, hpre⟩
  exact Text.hasTopLevel_eq_true_iff.mpr ⟨c.keyword, hk, _, hstart, hhere⟩

namespace Query

variable {q : Query} {k t : Text}

theorem text_of_order {keys : Text} (h : q.order = some keys) :
    q.text = q.head ++ Keyword.orderBy ++ keys ++ Clause.join q.closing := by
  rw [text_eq_head, ordering, h]
  simp [Clause.join, Clause.text]

theorem text_withoutOrder (q : Query) :
    ({ q with order := none } : Query).text = q.head ++ Clause.join q.closing := by
  rw [text_eq_head]
  rfl

theorem WellFormed.withoutOrder (h : q.WellFormed) : { q with order := none }.WellFormed where
  selectList_body := h.selectList_body
  source_body := h.source_body
  condition_body := h.condition_body
  grouping_body := h.grouping_body
  order_body o ho := absurd ho (Option.not_mem_none o)
  limit_body := h.limit_body
  locking_inert := h.locking_inert

theorem WellFormed.leading_keyword (h : q.WellFormed) :
    ∀ c ∈ q.leading, c.keyword ≠ Keyword.orderBy := by
  intro c hc
  rw [leading, List.cons_append, List.mem_cons, List.mem_append] at hc
  rcases hc with rfl | hc | hc
  · exact (by decide : Keyword.fromClause ≠ Keyword.orderBy)
  · rw [Clause.keyword_of_mem_optional hc]
    decide
  · intro e
    exact absurd (e ▸ (h.grouping_body c hc).1) (by decide)

theorem WellFormed.closing_keyword_ne (h : q.WellFormed) :
    ∀ c ∈ q.closing, c.keyword ≠ Keyword.orderBy := by
  intro c hc e
  exact absurd (e ▸ h.closing_keyword c hc) (by decide)

theorem WellFormed.order_at (h : q.WellFormed) :
    Text.topLevel? Keyword.orderBy 0 q.text = q.order.map fun _ => q.head.length := by
  cases ho : q.order with
  | none =>
    have htext : q.text = q.head ++ Clause.join q.closing := by
      rw [← text_withoutOrder, ← ho]
    refine Text.topLevel?_eq_none_iff.mpr fun i _ hi => ?_
    have hsplit : q.text = Keyword.select ++
        (q.selectList ++ Clause.join (q.leading ++ q.closing)) ++ [] := by
      rw [htext, head, Clause.join_append]
      simp only [List.append_assoc, List.append_nil]
    rw [hsplit] at hi
    refine Clause.not_occurs_join (by decide) h.selectList_body.inert ?_ (by decide) ?_
      Text.leadsOff_nil ?_ (Or.inr (by decide)) hi
    · intro c hc
      rcases List.mem_append.mp hc with hc | hc
      · exact h.leading_clause c hc
      · exact h.closing_clause c hc
    · intro c hc
      rcases List.mem_append.mp hc with hc | hc
      · exact h.leading_keyword c hc
      · exact h.closing_keyword_ne c hc
    · have hlt := hi.1
      rwa [List.append_nil] at hlt
  | some keys =>
    rw [text_of_order ho, List.append_assoc, List.append_assoc]
    refine Text.topLevel?_append (by decide) h.head_closed.1 (Nat.zero_le _) ?_ ?_
    · rw [Text.fold_append]
      exact List.prefix_append _ _
    · intro i _ hi
      exact Clause.not_occurs_join (by decide) h.selectList_body.inert h.leading_clause (by decide)
        h.leading_keyword (Text.leadsOff_keyword (by decide) _) hi (Or.inr (by decide))

/-- The keys of the order end where a row limit or a lock begins. -/
theorem WellFormed.keys_end (h : q.WellFormed) {keys : Text} (ho : q.order = some keys) :
    (Text.firstTopLevel? Keyword.limits (q.head.length + Keyword.orderBy.length) q.text).getD
      q.text.length = (q.head ++ Keyword.orderBy ++ keys).length := by
  have hkeys := h.order_body keys ho
  have hhead := Clause.join_eq_nil_or h.closing_clause h.closing_keyword
  have hcuts : ∀ k ∈ Keyword.limits, k ∈ Keyword.cuts := by decide
  have hfree : ∀ k ∈ Keyword.limits, Text.Free k keys := fun k hk =>
    hkeys.inert.free k (Keyword.mem_clauses_of_mem_trailing (List.mem_append_right _ hk))
  rw [text_of_order ho, ← List.length_append]
  exact Outline.firstTopLevel?_clause hcuts h.head_closed
    (by decide : Keyword.orderBy ∈ Keyword.heads) hkeys.closed hfree hhead

theorem WellFormed.closing_eq_nil (h : q.WellFormed) {s : Text} {start : ℕ} (hs : Place.Closed s)
    (htext : q.text = s ++ Clause.join q.closing) (hstart : start ≤ s.length) :
    (Text.hasTopLevel Keyword.limits start q.text = false → q.closing = []) ∧
      (Text.hasTopLevel Keyword.rowLimits start q.text = false → q.limit = []) := by
  have hclause := h.closing_clause
  have hkeyword := h.closing_keyword
  constructor
  · intro hno
    cases hcs : q.closing with
    | nil => rfl
    | cons c cs =>
      rw [hcs] at hclause hkeyword
      rw [htext, hcs, Clause.hasTopLevel_join hs (hclause c List.mem_cons_self)
        (hkeyword c List.mem_cons_self) hstart] at hno
      exact absurd hno (by decide)
  · intro hno
    cases hcs : q.limit with
    | nil => rfl
    | cons c cs =>
      have hc : c ∈ q.limit := hcs ▸ List.mem_cons_self
      have hclosing : q.closing = c :: (cs ++ Clause.optional Keyword.forUpdate q.locking) := by
        rw [closing, hcs, List.cons_append]
      rw [htext, hclosing, Clause.hasTopLevel_join hs (hclause c (hclosing ▸ List.mem_cons_self))
        (h.limit_body c hc).1 hstart] at hno
      exact absurd hno (by decide)

/-- The query with a row count for its select list. -/
def counted (q : Query) : Query := { q with selectList := Keyword.rowCount }

theorem WellFormed.counted (h : q.WellFormed) : q.counted.WellFormed where
  selectList_body := (by decide : IsBody Keyword.rowCount)
  source_body := h.source_body
  condition_body := h.condition_body
  grouping_body := h.grouping_body
  order_body := h.order_body
  limit_body := h.limit_body
  locking_inert := h.locking_inert

/-- The query that counts the rows of a derived table. -/
def ofDerived (d : Dialect) (tableAlias t : Text) : Query :=
  bare Keyword.rowCount (d.derivedTable t tableAlias) none

theorem wellFormed_ofDerived (d : Dialect) {tableAlias : Text} (halias : IsBody tableAlias)
    (ht : Place.Closed t) : (ofDerived d tableAlias t).WellFormed :=
  wellFormed_bare (by decide) (Text.isBody_derivedTable d ht halias)
    fun w hw => absurd hw (Option.not_mem_none w)

theorem isCount_ofDerived (d : Dialect) (tableAlias t : Text) :
    (ofDerived d tableAlias t).IsCount :=
  ⟨rfl, fun _ hc => absurd hc List.not_mem_nil, rfl, rfl, rfl⟩

theorem text_ofDerived (d : Dialect) (tableAlias t : Text) :
    (ofDerived d tableAlias t).text = Statement.countWrapped d tableAlias t := by
  have hselect : "SELECT COUNT(*) FROM ".toList =
      Keyword.select ++ (Keyword.rowCount ++ Keyword.fromClause) := by decide
  unfold Statement.countWrapped
  rw [hselect, ofDerived, text_bare]
  simp [Clause.join]

end Query

namespace Statement

variable {q : Query} {t : Text}

/-- The order that is left out is the one of the query, and no row limit depends on it. -/
theorem eq_of_withoutOrder? (h : q.WellFormed) (ht : withoutOrder? q.text = some t) :
    t = ({ q with order := none } : Query).text ∧ (q.order = none ∨ q.limit = []) := by
  unfold withoutOrder? at ht
  rw [h.order_at] at ht
  cases ho : q.order with
  | none =>
    rw [ho, Option.map_none] at ht
    have hq : ({ q with order := none } : Query) = q := by
      rw [← ho]
    rw [hq]
    exact ⟨(Option.some.inj ht).symm, Or.inl rfl⟩
  | some keys =>
    rw [ho, Option.map_some] at ht
    simp only [h.keys_end ho] at ht
    have htext := Query.text_of_order ho
    have hclosed : Place.Closed (q.head ++ Keyword.orderBy ++ keys) :=
      (h.head_closed.append (Keyword.closed_of_mem_heads (by decide))).append
        (h.order_body keys ho).closed
    have htake : q.text.take q.head.length = q.head := by
      rw [htext, List.append_assoc, List.append_assoc, List.take_left]
    have hdrop : q.text.drop (q.head ++ Keyword.orderBy ++ keys).length =
        Clause.join q.closing := by
      rw [htext, List.drop_left]
    split at ht
    · exact absurd ht (by simp)
    · split at ht
      · exact absurd ht (by simp)
      · rename_i hlimits
        rw [htake, hdrop] at ht
        refine ⟨by rw [Query.text_withoutOrder, Option.some.inj ht], Or.inr ?_⟩
        refine (h.closing_eq_nil hclosed htext ?_).2 (Bool.eq_false_iff.mpr hlimits)
        simp only [List.length_append]
        omega

/-- The select list that is replaced is the one of the query, and its rows are neither capped nor
locked. -/
theorem eq_of_countDirectly? (h : q.WellFormed) (ht : countDirectly? q.text = some t) :
    t = q.counted.text ∧ q.limit = [] ∧ q.locking = none := by
  have hfrom := h.outline.from_at
  rw [q.outline_text] at hfrom
  have hsplit : q.text = q.outline.selection ++ Clause.join q.clauses := by
    rw [Query.text, Outline.selection, Query.outline, List.append_assoc]
  have hdrop : q.text.drop q.outline.selection.length = Clause.join q.clauses := by
    rw [hsplit, List.drop_left]
  have hselect : "SELECT COUNT(*)".toList = Keyword.select ++ Keyword.rowCount := by decide
  unfold countDirectly? at ht
  rw [hfrom] at ht
  simp only [hdrop, hselect] at ht
  split at ht
  · exact absurd ht (by simp)
  · rename_i hno
    push Not at hno
    have hclosed : Place.Closed (q.head ++ Clause.join q.ordering) :=
      h.head_closed.append (Clause.closed_join h.ordering_clause)
    have htext : q.text = q.head ++ Clause.join q.ordering ++ Clause.join q.closing := by
      rw [q.text_eq_head, List.append_assoc]
    have hstart : q.outline.selection.length ≤ (q.head ++ Clause.join q.ordering).length := by
      simp only [Query.outline, Outline.selection, Query.head, List.length_append]
      omega
    have hclosing := (h.closing_eq_nil hclosed htext hstart).1 (Bool.eq_false_iff.mpr hno.2.2)
    obtain ⟨hlimit, hlocking⟩ := List.append_eq_nil_iff.mp hclosing
    refine ⟨?_, hlimit, ?_⟩
    · rw [← Option.some.inj ht, List.append_assoc]
      rfl
    · cases hl : q.locking with
      | none => rfl
      | some l =>
        rw [hl] at hlocking
        exact absurd hlocking (by simp)

variable {Row : Type} {S : Reading Row} {n : ℕ} {tableAlias : Text}

/-- A count of the derived table of a query counts the rows of the query. -/
theorem counts_countWrapped (hS : S.Lawful) (h : q.WellFormed) (d : Dialect)
    (hname : S.IsName tableAlias) :
    S.Counts (countWrapped d tableAlias q.text) n ↔ n = (S.rows q).length := by
  have hwrapped := Query.wellFormed_ofDerived d (S.name_body _ hname) h.closed
  have hcount := Query.isCount_ofDerived d tableAlias q.text
  rw [← Query.text_ofDerived, S.counts_text_iff hwrapped hcount]
  change n = (S.fetch (d.derivedTable q.text tableAlias) none).length ↔ _
  rw [hS d q tableAlias h hname]

/-- A select list can be replaced by a row count when it makes one row of each row. -/
theorem counts_counted (h : q.WellFormed) (hrows : S.Rowwise q.selectList)
    (hwindows : Clause.OnlyWindows q.grouping) (horder : q.order = none) (hlimit : q.limit = [])
    (hlocking : q.locking = none) : S.Counts q.counted.text n ↔ n = (S.rows q).length := by
  have hlength : (S.rows q).length = (S.fetch q.source q.condition).length := by
    unfold Reading.rows Reading.arrange
    simp only [horder, hlimit, if_true]
    exact hrows _ _ hwindows
  rw [S.counts_text_iff h.counted ⟨rfl, hwindows, horder, hlimit, hlocking⟩, hlength]
  rfl

/-- The count statement of a query counts its rows. -/
theorem counts_count (hS : S.Lawful) (h : q.WellFormed) (d : Dialect) (hname : S.IsName tableAlias)
    {p : Profile}
    (hp : p.isComplex = false → S.Rowwise q.selectList ∧ Clause.OnlyWindows q.grouping) :
    S.Counts (count d tableAlias p q.text) n ↔ n = (S.rows q).length := by
  unfold count
  cases hw : withoutOrder? q.text with
  | none => exact counts_countWrapped hS h d hname
  | some stripped =>
    obtain ⟨rfl, horder⟩ := eq_of_withoutOrder? h hw
    rw [← S.length_rows_of_order horder]
    simp only
    split
    · exact counts_countWrapped hS h.withoutOrder d hname
    · rename_i hcomplex
      obtain ⟨hrows, hwindows⟩ := hp (Bool.eq_false_iff.mpr hcomplex)
      cases hd : countDirectly? ({ q with order := none } : Query).text with
      | none => exact counts_countWrapped hS h.withoutOrder d hname
      | some direct =>
        obtain ⟨rfl, hlimit, hlocking⟩ := eq_of_countDirectly? h.withoutOrder hd
        exact counts_counted h.withoutOrder hrows hwindows rfl hlimit hlocking

end Statement

/-- The text mentions a word after which the number of rows may have changed. -/
def Profile.regroups (p : Profile) : Bool :=
  p.hasDistinct || p.hasGroupBy || p.hasHaving || p.hasJoin || p.hasSetOperation

theorem Profile.isComplex_of_regroups {p : Profile} (h : p.regroups = true) :
    p.isComplex = true := by
  simp only [regroups, isComplex, Bool.or_eq_true] at h ⊢
  tauto

theorem Query.mentions_keyword {q : Query} (h : q.WellFormed) {c : Clause} (hc : c ∈ q.clauses)
    (outer : Text) : Text.mentions c.keyword (q.text ++ outer) = true := by
  have hfold := Keyword.fold_of_mem_heads _ (Keyword.mem_heads_of_mem_cuts (h.clause c hc).mem_cuts)
  obtain ⟨before, after, hsplit⟩ := List.append_of_mem hc
  refine Text.contains_iff.mpr ⟨Text.fold (Keyword.select ++ (q.selectList ++ Clause.join before)),
    Text.fold (c.body ++ Clause.join after ++ outer), ?_⟩
  rw [← hfold, ← Text.fold_append, ← Text.fold_append, Query.text, hsplit, Clause.join_append,
    Clause.join_cons, Clause.text]
  simp only [List.append_assoc]

/-- A query whose source is simple groups nothing. -/
theorem Query.onlyWindows_of_simple {q : Query} (h : q.WellFormed) {outer : Text}
    (hsimple : (Profile.of (q.text ++ outer)).isComplex = false) :
    Clause.OnlyWindows q.grouping := by
  intro c hc
  have hmem : c ∈ q.clauses := by
    rw [q.clauses_eq_leading]
    exact List.mem_append_left _ (List.mem_append_right _ hc)
  have hmentions := Query.mentions_keyword h hmem outer
  have hcases : ∀ k ∈ Keyword.grouping,
      k = Keyword.groupBy ∨ k = Keyword.having ∨ k = Keyword.window := by decide
  simp only [Profile.isComplex, Bool.or_eq_false_iff] at hsimple
  rcases hcases _ (h.grouping_body c hc).1 with hk | hk | hk
  · have hgroup : (Profile.of (q.text ++ outer)).hasGroupBy = true := by
      rw [hk] at hmentions
      exact hmentions
    rw [hgroup] at hsimple
    exact absurd hsimple (by simp)
  · have hhaving : (Profile.of (q.text ++ outer)).hasHaving = true := by
      rw [hk] at hmentions
      exact hmentions
    rw [hhaving] at hsimple
    exact absurd hsimple (by simp)
  · exact hk

namespace Statement

/-- The count statement counts the rows of the normalized statement, under every filter: the
select list makes one row of each row, or the source mentions a word that keeps it. -/
theorem counts_rows_of_query {Row : Type} {S : Reading Row} (hS : S.Lawful) (d : Dialect)
    {r : Request} {q : Query} {outer tableAlias : Text} (h : q.WellFormed)
    (hsource : r.source = q.text ++ outer) (hbare : bareSource r.source = q.text)
    (hrows : S.Rowwise q.selectList ∨ (Profile.of r.source).regroups = true) {f : Fragment}
    (hf : f.text = [] ∨ IsBody f.text) (hname : S.IsName tableAlias) :
    ∃ s rows, ofRequest d r (.of r.source) f = .ok s ∧
      (∀ rows', S.Yields s.text rows' ↔ rows' = rows) ∧
      ∀ n, S.Counts (count d tableAlias (.of r.source) s.text) n ↔ n = rows.length := by
  obtain ⟨q', parameters, hq', hnormal, hsame⟩ := ofRequest_of_query h hsource hbare d hf
  refine ⟨_, S.rows q', hnormal, fun rows' => S.yields_text_iff hq', fun n => ?_⟩
  refine counts_count hS hq' d hname fun hsimple => ?_
  have hset : (Profile.of r.source).hasSetOperation = false := by
    simp only [Profile.isComplex, Bool.or_eq_false_iff] at hsimple
    exact hsimple.1.1.2
  obtain ⟨hselect, hgrouping⟩ := hsame hset
  rw [hselect, hgrouping]
  refine ⟨hrows.resolve_right fun hregroups => ?_, ?_⟩
  · rw [Profile.isComplex_of_regroups hregroups] at hsimple
    exact absurd hsimple (by decide)
  · rw [hsource] at hsimple
    exact Query.onlyWindows_of_simple h hsimple

/-- A table of three rows, an order that turns them around and a limit of two. -/
def threeRows : Reading ℕ where
  fetch t _ := if t = "t".toList then [1, 2, 3] else []
  select _ _ rows := rows
  sort _ rows := rows.reverse
  slice _ rows := rows.take 2
  IsName := IsBody
  sort_perm _ rows := rows.reverse_perm
  slice_infix _ rows := (rows.take_prefix 2).isInfix
  name_body _ h := h

/-- A query with an order, a row limit and a lock. -/
def lastTwo : Query :=
  { selectList := "a".toList
    source := "t".toList
    condition := none
    grouping := []
    order := some "a DESC".toList
    limit := [⟨Keyword.limit, "2".toList⟩]
    locking := some [] }

theorem counts_rows_of_query_lastTwo :
    ∃ s rows, ofRequest .mysql { source := lastTwo.text ++ " ;".toList }
        (.of (lastTwo.text ++ " ;".toList)) ⟨"b = ')'".toList, []⟩ = .ok s ∧
      (∀ rows', threeRows.extend.Yields s.text rows' ↔ rows' = rows) ∧
      ∀ n, threeRows.extend.Counts (count .mysql "c".toList
        (.of (lastTwo.text ++ " ;".toList)) s.text) n ↔ n = rows.length := by
  have h : lastTwo.WellFormed :=
    { selectList_body := by decide
      source_body := by decide
      condition_body := by decide
      grouping_body := by decide
      order_body := by decide
      limit_body := by decide
      locking_inert := by decide }
  exact counts_rows_of_query threeRows.lawful_extend .mysql
    (r := { source := lastTwo.text ++ " ;".toList }) h rfl (by decide)
    (Or.inl fun _ _ _ => rfl) (f := ⟨"b = ')'".toList, []⟩) (Or.inr (by decide))
    (by decide : IsBody "c".toList)

end Statement

end PagedQuery
