import PagedQuery.Proofs.Trace.Numbered

/-!
# Shared indices

The count statement and the page statement of a plan are numbered apart, each
after its own highest number. They hold the same placeholders in the same order,
so they share their indices exactly when their highest numbers are the same. The
page keeps every number of the statement and takes those of the order keys that are
put in. A count that leaves out a select list or an order loses the numbers in it.
-/
namespace PagedQuery.Planner

open Trace (Carries)
open Placeholder (Neutral index)

/-- The count and the page of the statement, as traces of its placeholders. -/
structure Paired (p : Planner) (r : Request) (plan : Plan) (s : Statement)
    (counted paged : Trace) : Prop where
  statement_eq : p.statement r = .ok s
  counted_eq : Trace.count p.dialect p.options.countAlias (.of r.source)
    (Trace.label .source s.text) = counted
  paged_eq : Trace.page p.dialect r.orderFragments (p.window r) (Trace.label .source s.text) =
    .ok paged
  countStatement_eq : plan.countStatement =
    Placeholder.fill (Placeholder.tokens p.dialect.placeholderStyle counted.text) counted.text
  pageStatement_eq : plan.pageStatement =
    Placeholder.fill (Placeholder.tokens p.dialect.placeholderStyle paged.text) paged.text
  /-- The placeholders of the statement stand in both, with consecutive indices. -/
  counted_index : ∀ i < Placeholder.count s.text,
    counted.index? p.dialect.placeholderStyle (.source i) =
      some (index p.dialect.placeholderStyle counted.text i)
  paged_index : ∀ i < Placeholder.count s.text,
    paged.index? p.dialect.placeholderStyle (.source i) =
      some (index p.dialect.placeholderStyle paged.text i)

/-- The order that the page of the statement gets. -/
def orderPutIn (p : Planner) (r : Request) (s : Statement) : Text :=
  Statement.addedOrder p.dialect
    (Text.topLevel? Keyword.orderBy 0 (Statement.unlimited p.dialect s.text)).isSome
    r.orderFragments

variable {p : Planner} {r : Request} {f : Fragment} {plan : Plan}

/-- The placeholders of a labelled text have the indices of their own order. -/
theorem index?_source {style : PlaceholderStyle} {m : Trace} {n : Nat}
    (h : Carries .question m ((List.range n).map .source)) :
    ∀ i < n, m.index? style (.source i) = some (index style m.text i) := by
  intro i hi
  have hnodup : ((List.range n).map Origin.source).Nodup :=
    List.nodup_range.map fun _ _ => Origin.source.inj
  apply Trace.index?_eq h.placeholders hnodup
  rw [List.getElem?_map, List.getElem?_range hi, Option.map_some]

theorem exists_paired (hstyle : p.dialect.placeholderStyle ≠ .question) (h : WellQuoted r f)
    (halias : Neutral .question p.options.countAlias) (hplan : p.plan r = .ok plan) :
    ∃ s counted paged, p.Paired r plan s counted paged ∧
      Placeholder.highest p.dialect.placeholderStyle paged.text =
        max (Placeholder.highest p.dialect.placeholderStyle s.text)
          (Placeholder.highest p.dialect.placeholderStyle (p.orderPutIn r s)) := by
  obtain ⟨s, pageText, hs, hpage, rfl⟩ := eq_of_plan hplan
  obtain ⟨traced, position, -, -, htext, -, -, htraced⟩ := h.exists_traced hs
  have hclosed : Quote.Closed s.text := htext ▸ htraced.closed
  have hlabel : Carries .question (Trace.label .source s.text) _ :=
    Trace.carries_label .source hclosed rfl
  have hcounted := Trace.carries_count p.dialect (.of r.source) hlabel halias
  obtain ⟨paged, hpaged, rfl⟩ := exists_paged (Trace.text_label .source s.text) hpage
  have hpagedCarries := Trace.carries_page hlabel h.order hpaged
  have hcountText := Trace.text_count p.dialect p.options.countAlias (.of r.source)
    (Trace.label .source s.text)
  rw [Trace.text_label] at hcountText
  refine ⟨s, Trace.count p.dialect p.options.countAlias (.of r.source)
    (Trace.label .source s.text), paged, ?_, Statement.highest_page hclosed h.order hpage⟩
  exact
    { statement_eq := hs
      counted_eq := rfl
      paged_eq := hpaged
      countStatement_eq := by
        rw [hcountText, ← Placeholder.restyle_eq_fill hstyle]
        rfl
      pageStatement_eq := Placeholder.restyle_eq_fill hstyle paged.text
      counted_index := index?_source hcounted
      paged_index := index?_source hpagedCarries }

/-- Both statements give every placeholder the same index exactly when there is none, or the count has
kept the highest number of the statement and of the order that the page gets. -/
theorem indices_shared_iff (hstyle : p.dialect.placeholderStyle ≠ .question) (h : WellQuoted r f)
    (halias : Neutral .question p.options.countAlias) (hplan : p.plan r = .ok plan) :
    ∃ s counted paged, p.Paired r plan s counted paged ∧
      ((∀ i < Placeholder.count s.text,
          counted.index? p.dialect.placeholderStyle (.source i) =
            paged.index? p.dialect.placeholderStyle (.source i)) ↔
        Placeholder.count s.text = 0 ∨
          Placeholder.highest p.dialect.placeholderStyle counted.text =
            max (Placeholder.highest p.dialect.placeholderStyle s.text)
              (Placeholder.highest p.dialect.placeholderStyle (p.orderPutIn r s))) := by
  obtain ⟨s, counted, paged, hpaired, hhighest⟩ := exists_paired hstyle h halias hplan
  refine ⟨s, counted, paged, hpaired, ?_⟩
  rw [← hhighest]
  have hsame : ∀ i < Placeholder.count s.text,
      (counted.index? p.dialect.placeholderStyle (.source i) =
          paged.index? p.dialect.placeholderStyle (.source i) ↔
        Placeholder.highest p.dialect.placeholderStyle counted.text =
          Placeholder.highest p.dialect.placeholderStyle paged.text) := by
    intro i hi
    rw [hpaired.counted_index i hi, hpaired.paged_index i hi, Option.some_inj,
      Placeholder.index_eq_index_iff]
  -- the indices of one statement are consecutive, so the first one decides for all
  constructor
  · intro hall
    rcases Nat.eq_zero_or_pos (Placeholder.count s.text) with hnone | hsome
    · exact Or.inl hnone
    · exact Or.inr ((hsame 0 hsome).mp (hall 0 hsome))
  · rintro (hnone | heq) i hi
    · omega
    · exact (hsame i hi).mpr heq

/-- A statement with a number in its condition and one in its order, which is limited. -/
def numberedOrder : Request :=
  { source := "SELECT a FROM t WHERE b = $1 AND c > ? ORDER BY $2 LIMIT 5".toList
    parameters := [.text "u".toList, .text "v".toList, .text "w".toList] }

theorem indices_shared_iff_numberedOrder :
    ∃ plan s counted paged, ({ dialect := .postgres } : Planner).plan numberedOrder = .ok plan ∧
      plan.countStatement =
        ("SELECT COUNT(*) FROM (SELECT a FROM t WHERE b = $1 AND c > $3 ORDER BY $2 LIMIT 5) " ++
          "AS pagehaus_count").toList ∧
      plan.pageStatement =
        ("SELECT * FROM (SELECT a FROM t WHERE b = $1 AND c > $3 ORDER BY $2 LIMIT 5) " ++
          "AS pagehaus_page LIMIT 10 OFFSET 0").toList ∧
      ({ dialect := .postgres } : Planner).Paired numberedOrder plan s counted paged ∧
      ∀ i < Placeholder.count s.text,
        counted.index? .dollar (.source i) = paged.index? .dollar (.source i) := by
  have h : WellQuoted numberedOrder ⟨[], []⟩ :=
    { filter_eq := by rfl
      source_closed := by decide
      filter_closed := by decide
      table := nofun
      order := by decide }
  obtain ⟨plan, hplan, hcount, hpage⟩ := exists_plan { dialect := .postgres } numberedOrder
    ("SELECT COUNT(*) FROM (SELECT a FROM t WHERE b = $1 AND c > $3 ORDER BY $2 LIMIT 5) " ++
      "AS pagehaus_count").toList
    ("SELECT * FROM (SELECT a FROM t WHERE b = $1 AND c > $3 ORDER BY $2 LIMIT 5) " ++
      "AS pagehaus_page LIMIT 10 OFFSET 0").toList
    (by decide +kernel)
  obtain ⟨s, counted, paged, hpaired, hshared⟩ :=
    indices_shared_iff (p := { dialect := .postgres }) (by decide) h (by decide) hplan
  refine ⟨plan, s, counted, paged, hplan, hcount, hpage, hpaired, hshared.mpr (Or.inr ?_)⟩
  have hnormal : ({ dialect := .postgres } : Planner).statement numberedOrder =
      .ok ⟨numberedOrder.source, numberedOrder.parameters⟩ := rfl
  obtain rfl := Except.ok.inj (hpaired.statement_eq.symm.trans hnormal)
  rw [← hpaired.counted_eq]
  decide +kernel

/-- A source with a number in its select list, which the count leaves out. -/
def numberedSelect : Request :=
  { source := "SELECT $1 AS tag, name FROM users WHERE age > ?".toList
    parameters := [.text "x".toList, .text "18".toList] }

/-- The placeholder stands for the first value in the count and for the second in the page. -/
theorem not_shared_numberedSelect :
    ∃ plan s counted paged, ({ dialect := .postgres } : Planner).plan numberedSelect = .ok plan ∧
      plan.countStatement = "SELECT COUNT(*) FROM users WHERE age > $1".toList ∧
      plan.pageStatement =
        "SELECT $1 AS tag, name FROM users WHERE age > $2 LIMIT 10 OFFSET 0".toList ∧
      ({ dialect := .postgres } : Planner).Paired numberedSelect plan s counted paged ∧
      Placeholder.count s.text = 1 ∧ counted.index? .dollar (.source 0) = some 1 ∧
      paged.index? .dollar (.source 0) = some 2 := by
  have h : WellQuoted numberedSelect ⟨[], []⟩ :=
    { filter_eq := by rfl
      source_closed := by decide
      filter_closed := by decide
      table := nofun
      order := by decide }
  obtain ⟨plan, hplan, hcountStatement, hpageStatement⟩ := exists_plan { dialect := .postgres }
    numberedSelect "SELECT COUNT(*) FROM users WHERE age > $1".toList
    "SELECT $1 AS tag, name FROM users WHERE age > $2 LIMIT 10 OFFSET 0".toList
    (by decide +kernel)
  obtain ⟨s, counted, paged, hpaired, hhighest⟩ :=
    exists_paired (p := { dialect := .postgres }) (by decide) h (by decide) hplan
  have hnormal : ({ dialect := .postgres } : Planner).statement numberedSelect =
      .ok ⟨numberedSelect.source, numberedSelect.parameters⟩ := rfl
  obtain rfl := Except.ok.inj (hpaired.statement_eq.symm.trans hnormal)
  have hcount : Placeholder.count numberedSelect.source = 1 := by decide
  have hcounted := hpaired.counted_index 0 (by rw [hcount]; decide)
  have hpaged := hpaired.paged_index 0 (by rw [hcount]; decide)
  refine ⟨plan, _, counted, paged, hplan, hcountStatement, hpageStatement, hpaired, hcount,
    hcounted.trans ?_, hpaged.trans ?_⟩
  · rw [← hpaired.counted_eq]
    decide +kernel
  · unfold Placeholder.index
    rw [hhighest]
    decide +kernel

end PagedQuery.Planner
