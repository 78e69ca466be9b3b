import PagedQuery.Proofs.Renumbering
import PagedQuery.Proofs.Statement.Limits

/-!
# Paged statements

A page has one row limit, that of its window. A statement that limits its rows
itself is hidden in the parentheses of a derived table, any other statement has no
row limit, and no text that is put behind it makes one. What stands behind the limit
is the locking clause of the statement, and a dialect that needs an order gets one.
-/
namespace PagedQuery

namespace Statement

open Text (Occurs Settled LeadsOff EndsIn)

variable {d : Dialect} {keys : List Text} {w : Window} {t front locking pageText : Text}

def lockAt (t : Text) : Nat := (Text.topLevel? Keyword.forUpdate 0 t).getD t.length

/-- What stands around the limit in the page of a text. -/
structure Framed (d : Dialect) (keys : List Text) (t front locking : Text) : Prop where
  of_limited : Text.hasTopLevel Keyword.rowLimits 0 t = true →
    front = selectAll (d.derivedTable t pageAlias) ++ addedOrder d false keys ∧ locking = []
  of_unlimited : Text.hasTopLevel Keyword.rowLimits 0 t = false →
    front = Text.trimEnd (t.take (lockAt t)) ++
        addedOrder d (Text.topLevel? Keyword.orderBy 0 t).isSome keys ∧
      locking = t.drop (lockAt t)

theorem not_occurs_unlimited (ht : Place.Closed t) {k : Text} (hk : k ∈ Keyword.clauses)
    (hne : k ≠ Keyword.fromClause) :
    Text.topLevel? k 0 (selectAll (d.derivedTable t pageAlias)) = none := by
  refine Text.topLevel?_eq_none_iff.mpr fun i _ ho => ?_
  exact not_occurs_derivedTable ht (by decide) hk hne (ho.append [' '])

theorem exists_framed (ht : Place.Closed t) (h : page d keys w t = .ok pageText) :
    ∃ front locking, Framed d keys t front locking ∧
      pageText = limited d.limitSyntax w front locking ∧
      (locking = [] ∨ Keyword.forUpdate <+: Text.fold locking) ∧
      (d.limitSyntax = .rowNum → locking = []) := by
  obtain ⟨hpage, hlost⟩ := eq_of_page rfl h
  cases hlimited : Text.hasTopLevel Keyword.rowLimits 0 t with
  | true =>
    -- the parentheses hide the order and the locking clause of the statement as well
    have horder : Text.topLevel? Keyword.orderBy 0 (selectAll (d.derivedTable t pageAlias)) = none :=
      not_occurs_unlimited ht (by decide) (by decide)
    have hlock : Text.topLevel? Keyword.forUpdate 0 (selectAll (d.derivedTable t pageAlias)) =
        none := not_occurs_unlimited ht (by decide) (by decide)
    simp only [unlimited, hlimited, if_true, horder, hlock, Option.getD_none, Option.isSome_none,
      List.take_length, List.drop_length, trimEnd_derivedTable] at hpage
    exact ⟨_, [], ⟨fun _ => ⟨rfl, rfl⟩, fun hno => absurd hno (by simp [hlimited])⟩, hpage,
      Or.inl rfl, fun _ => rfl⟩
  | false =>
    simp only [unlimited, hlimited, Bool.false_eq_true, if_false] at hpage hlost
    refine ⟨_, _, ⟨fun hyes => absurd hyes (by simp [hlimited]), fun _ => ⟨rfl, rfl⟩⟩, hpage, ?_,
      fun hlimit => hlost (Dialect.locksPages_of_rowNum hlimit)⟩
    unfold lockAt
    cases hf : Text.topLevel? Keyword.forUpdate 0 t with
    | none =>
      left
      rw [Option.getD_none, List.drop_length]
    | some i =>
      right
      rw [Option.getD_some, ← Text.fold_drop]
      exact (Text.occurs_of_topLevel? hf).2.2

theorem after_take_lockAt (ht : Place.Closed t) : Place.Closed (t.take (lockAt t)) := by
  unfold lockAt
  cases hf : Text.topLevel? Keyword.forUpdate 0 t with
  | none => rwa [Option.getD_none, List.take_length]
  | some i =>
    have hstart := (Text.occurs_of_topLevel? hf).2.1
    rw [← List.take_append_drop i t, Place.closed_append_iff hstart] at ht
    rw [Option.getD_some]
    exact ht.1

/-- The text in front of the limit is settled, and the text behind it has no row limit. -/
theorem Framed.settled (h : Framed d keys t front locking) (ht : Place.Closed t)
    (hkeys : ∀ key ∈ keys, Place.Closed key)
    (hfree : ∀ key ∈ keys, ∀ k ∈ Keyword.rowLimits, Text.Free k key)
    (hends : Text.hasTopLevel Keyword.rowLimits 0 t = false →
      ∀ word ∈ Keyword.rowLimitWords, ¬EndsIn word (t.take (lockAt t))) :
    Settled front ∧ Place.after .start front = .start ∧
      ∀ k ∈ Keyword.rowLimits, ∀ i, ¬Occurs k locking i := by
  cases hlimited : Text.hasTopLevel Keyword.rowLimits 0 t with
  | true =>
    obtain ⟨rfl, rfl⟩ := h.of_limited hlimited
    have halias : pageAlias.all Text.isPlain = true := by decide
    have htable := selectAll_closed (derivedTable_closed d ht halias)
    refine ⟨settled_append_addedOrder d false (settled_derivedTable ht) htable.1 hkeys hfree,
      (htable.append (addedOrder_closed d false hkeys)).1, fun k _ i ho => ?_⟩
    exact absurd ho.1 (Nat.not_lt_zero i)
  | false =>
    obtain ⟨rfl, rfl⟩ := h.of_unlimited hlimited
    have hno := Text.hasTopLevel_eq_false_iff.mp hlimited
    have hfront := after_take_lockAt ht
    have hsettled : Settled (Text.trimEnd (t.take (lockAt t))) := by
      refine Text.settled_trimEnd (fun k hk i ho => ?_) (hends hlimited)
      have hall := ho.append (t.drop (lockAt t))
      rw [List.take_append_drop] at hall
      exact hno k hk i (Nat.zero_le i) hall
    refine ⟨settled_append_addedOrder d _ hsettled hfront.trimEnd.1 hkeys hfree,
      (hfront.trimEnd.append (addedOrder_closed d _ hkeys)).1, fun k hk i ho => ?_⟩
    have hall := (Text.occurs_append_right hfront.1).mpr ho
    rw [List.take_append_drop] at hall
    exact hno k hk _ (Nat.zero_le _) hall

/-- The limit of a window begins with a space and does not leave the top level. -/
theorem limit_eq_cons {limit : LimitSyntax} (hlimit : limit ≠ .rowNum) (w : Window) :
    ∃ rest, limited limit w [] [] = ' ' :: rest ∧ Place.Closed (limited limit w [] []) := by
  have hdigits : ∀ n : UInt64, (word n).all Text.isPlain = true := fun n =>
    List.all_eq_true.mpr fun _ hc =>
      Text.isPlain_of_isDigit (Nat.isDigit_of_mem_toDigits (by decide) (by decide) hc)
  cases limit with
  | rowNum => exact absurd rfl hlimit
  | limitOffset =>
    refine ⟨_, rfl, Place.closed_of_isPlain ?_⟩
    unfold limited
    simp only [List.all_append, hdigits, Bool.and_true, List.all_nil]
    decide
  | offsetFetch =>
    refine ⟨_, rfl, Place.closed_of_isPlain ?_⟩
    unfold limited
    simp only [List.all_append, hdigits, Bool.and_true, List.all_nil]
    decide

theorem occurs_trimEnd {k s u : Text} {i : Nat} (hk : k ∈ Keyword.cuts) (hu : LeadsOff u)
    (h : Occurs k (s ++ u) i) (hi : i < s.length) : Occurs k (Text.trimEnd s ++ [' ']) i := by
  obtain ⟨v, hv, hblank⟩ := Text.trimEnd_append_blanks s
  have hs := h.of_seam hk hu hi
  have hend : (v ++ [' ']).all Text.isBlank = true := by
    rw [List.all_append, hblank]
    rfl
  rw [hv, List.append_assoc] at hs
  exact hs.of_blanks hk hend (hs.lt_of_isBlank hk hend)

theorem limitSyntax_ne_rowNum (hneeds : d.needsOrder = true) : d.limitSyntax ≠ .rowNum := by
  cases d <;> first | exact absurd hneeds (by decide) | decide

theorem exists_addedOrder (hneeds : d.needsOrder = true) (keys : List Text) :
    ∃ rest, addedOrder d false keys = Keyword.orderBy ++ rest := by
  unfold addedOrder
  rw [if_neg Bool.false_ne_true, if_pos hneeds]
  split
  · exact ⟨_, rfl⟩
  · exact ⟨_, rfl⟩

/-- An order that is put in is one of the text. -/
theorem exists_occurs_addedOrder (hneeds : d.needsOrder = true) (keys : List Text) {s : Text}
    (hs : Place.after .start s = .start) (u : Text) :
    ∃ i, Occurs Keyword.orderBy (s ++ addedOrder d false keys ++ u) i := by
  obtain ⟨rest, hbody⟩ := exists_addedOrder hneeds keys
  refine ⟨s.length + 0, ?_⟩
  rw [hbody, List.append_assoc, List.append_assoc]
  refine (Text.occurs_append_right hs).mpr ⟨Nat.lt_of_lt_of_le (by decide : 0 < 10) ?_, rfl, ?_⟩
  · rw [List.length_append]
    exact Nat.le_add_right _ _
  · rw [Text.fold_append]
    exact List.prefix_append _ _

theorem leadsOff_locking (h : locking = [] ∨ Keyword.forUpdate <+: Text.fold locking) :
    LeadsOff locking := by
  rcases h with rfl | hpre
  · exact Text.leadsOff_nil
  · exact Text.leadsOff_of_prefix (by decide) hpre

theorem exists_occurs_own {j : Nat} (ho : Occurs Keyword.orderBy t j) (ht : Place.Closed t)
    (hlead : LeadsOff (t.drop (lockAt t))) {rest : Text} (hrest : Place.Closed (' ' :: rest)) :
    ∃ i, Occurs Keyword.orderBy
      (Text.trimEnd (t.take (lockAt t)) ++ ' ' :: rest ++ t.drop (lockAt t)) i := by
  have hcut : Keyword.orderBy ∈ Keyword.cuts := by decide
  have htake := after_take_lockAt ht
  rw [← List.take_append_drop (lockAt t) t] at ho
  rcases Nat.lt_or_ge j (t.take (lockAt t)).length with hlt | hge
  · have hown := (occurs_trimEnd hcut hlead ho hlt).append (rest ++ t.drop (lockAt t))
    refine ⟨j, ?_⟩
    rw [List.append_assoc, List.cons_append]
    rwa [List.append_assoc] at hown
  · obtain ⟨n, rfl⟩ := Nat.exists_eq_add_of_le hge
    have hn := (Text.occurs_append_right htake.1).mp ho
    have hfront := htake.trimEnd.append hrest
    exact ⟨_, (Text.occurs_append_right hfront.1).mpr hn⟩

/-- A page has an order where the dialect needs one. -/
theorem Framed.exists_orderBy (h : Framed d keys t front locking) (ht : Place.Closed t)
    (hneeds : d.needsOrder = true)
    (hlocking : locking = [] ∨ Keyword.forUpdate <+: Text.fold locking) :
    ∃ i, Occurs Keyword.orderBy (limited d.limitSyntax w front locking) i := by
  have hlimit := limitSyntax_ne_rowNum hneeds
  obtain ⟨rest, hclause, hclosed⟩ := limit_eq_cons hlimit w
  rw [limited_eq_append hlimit]
  cases hlimited : Text.hasTopLevel Keyword.rowLimits 0 t with
  | true =>
    obtain ⟨rfl, rfl⟩ := h.of_limited hlimited
    have htable := selectAll_closed (derivedTable_closed d ht (by decide : pageAlias.all _ = true))
    rw [List.append_assoc]
    exact exists_occurs_addedOrder hneeds keys htable.1 _
  | false =>
    obtain ⟨rfl, rfl⟩ := h.of_unlimited hlimited
    cases horder : Text.topLevel? Keyword.orderBy 0 t with
    | none =>
      rw [List.append_assoc]
      exact exists_occurs_addedOrder hneeds keys (after_take_lockAt ht).trimEnd.1 _
    | some j =>
      have hnone : addedOrder d (some j).isSome keys = [] := rfl
      rw [hclause] at hclosed
      rw [hnone, List.append_nil, hclause]
      exact exists_occurs_own (Text.occurs_of_topLevel? horder) ht (leadsOff_locking hlocking)
        hclosed

end Statement

namespace Planner

open Placeholder (numberFrom)
open Text (Occurs Settled EndsIn)

/-- The texts of the caller are closed. The source, the table and the filter do not end in the word of
a row limit, and no order key has one. -/
structure Delimited (r : Request) (f : Fragment) : Prop where
  filter_eq : r.filter.render = .ok f
  source_closed : Place.Closed (Statement.bareSource r.source)
  table_closed : ∀ t ∈ r.table, Place.Closed t
  filter_closed : Place.Closed f.text
  order_closed : ∀ key ∈ r.orderFragments, Place.Closed key
  source_ends : ∀ word ∈ Keyword.rowLimitWords, ¬EndsIn word (Statement.bareSource r.source)
  table_ends : ∀ t ∈ r.table, ∀ word ∈ Keyword.rowLimitWords, ¬EndsIn word (Text.trim t)
  filter_ends : ∀ word ∈ Keyword.rowLimitWords, ¬EndsIn word f.text
  order_free : ∀ key ∈ r.orderFragments, ∀ k ∈ Keyword.rowLimits, Text.Free k key

/-- A statement without a row limit does not have the bare word of one in front of its locking
clause. -/
def LocksApart (p : Planner) (r : Request) : Prop :=
  ∀ s i, p.statement r = .ok s → Text.hasTopLevel Keyword.rowLimits 0 s.text = false →
    Text.topLevel? Keyword.forUpdate 0 s.text = some i →
      ∀ word ∈ Keyword.rowLimitWords, ¬EndsIn word (s.text.take i)

/-- The page of a plan: the limit of its window between numbered texts, no other row limit, and an
order where the dialect needs one. -/
structure Paged (p : Planner) (r : Request) (plan : Plan) (s : Statement)
    (front locking before behind : Text) : Prop where
  statement_eq : p.statement r = .ok s
  framed : Statement.Framed p.dialect r.orderFragments s.text front locking
  numbered : ∃ used, before = numberFrom p.dialect.placeholderStyle used .outside front ∧
    behind = numberFrom p.dialect.placeholderStyle
      (used + UInt64.ofNat (Placeholder.count front)) .outside locking
  pageStatement_eq : plan.pageStatement =
    Statement.limited p.dialect.limitSyntax plan.window before behind
  occurs_iff : p.dialect.limitSyntax ≠ .rowNum → ∀ k ∈ Keyword.rowLimits, ∀ i,
    Occurs k plan.pageStatement i ↔
      ∃ j, (k, j) ∈ Statement.limitKeywords p.dialect.limitSyntax plan.window ∧
        i = before.length + j
  of_rowNum : p.dialect.limitSyntax = .rowNum →
    behind = [] ∧ Text.hasTopLevel Keyword.rowLimits 0 before = false
  ordered : p.dialect.needsOrder = true →
    (Text.topLevel? Keyword.orderBy 0 plan.pageStatement).isSome = true

variable {p : Planner} {r : Request} {f : Fragment} {plan : Plan}

/-- In front of the locking clause, or at its end, no statement has a bare word of a row limit. -/
theorem Delimited.not_endsIn_take (h : Delimited r f) (hlock : p.LocksApart r) {s : Statement}
    (hs : p.statement r = .ok s)
    (hlimited : Text.hasTopLevel Keyword.rowLimits 0 s.text = false) :
    ∀ word ∈ Keyword.rowLimitWords, ¬EndsIn word (s.text.take (Statement.lockAt s.text)) := by
  intro word hword
  unfold Statement.lockAt
  cases hf : Text.topLevel? Keyword.forUpdate 0 s.text with
  | some i => exact hlock s i hs hlimited hf word hword
  | none =>
    have hstatement : Statement.ofRequest p.dialect r (.of r.source) f = .ok s := by
      rw [← hs, statement, h.filter_eq]
    rw [Option.getD_none, List.take_length]
    exact Statement.not_endsIn_ofRequest hword (h.source_ends word hword) h.source_closed
      (fun t ht => h.table_ends t ht word hword) h.table_closed (h.filter_ends word hword) hstatement

theorem settled_numberFrom {style : PlaceholderStyle} {used : UInt64} {t : Text}
    (ht : Quote.Closed t) (h : Settled t) : Settled (numberFrom style used .outside t) := by
  intro k hk i ho
  have hend := Placeholder.numberFrom_between style used (u := [' ']) ht (by decide) []
  rw [List.append_nil] at hend
  rw [show numberFrom style used .outside t ++ [' '] =
    numberFrom style used .outside (t ++ [' ']) from (hend.trans (List.append_nil _)).symm] at ho
  obtain ⟨j, hj⟩ := Placeholder.exists_occurs_of_numberFrom (Text.mem_cuts_of_mem_rowLimits k hk) ho
  exact h k hk j hj

theorem quote_closed_of_after {t : Text} (h : Place.after .start t = .start) : Quote.Closed t := by
  have hplace := congrArg Place.quote h
  rwa [Place.after_quote] at hplace

/-- Between a settled text and a locking clause, both numbered, a limit is the only row limit. -/
theorem occurs_numbered_iff (style : PlaceholderStyle) {limit : LimitSyntax} (w : Window)
    {front locking : Text} (used after : UInt64) (hsettled : Settled front)
    (hfront : Place.after .start front = .start)
    (hlocking : locking = [] ∨ Keyword.forUpdate <+: Text.fold locking)
    (hno : ∀ k ∈ Keyword.rowLimits, ∀ i, ¬Occurs k locking i) (hlimit : limit ≠ .rowNum) {k : Text}
    (hk : k ∈ Keyword.rowLimits) {i : Nat} :
    Occurs k (Statement.limited limit w (numberFrom style used .outside front)
        (numberFrom style after .outside locking)) i ↔
      ∃ j, (k, j) ∈ Statement.limitKeywords limit w ∧
        i = (numberFrom style used .outside front).length + j := by
  have hstart : Place.after .start (numberFrom style used .outside front) = .start := by
    rw [Placeholder.after_start_numberFrom, hfront]
  have hlead : Text.LeadsOff (numberFrom style after .outside locking) := by
    apply Statement.leadsOff_locking
    rcases hlocking with rfl | hpre
    · exact Or.inl rfl
    · exact Or.inr (Placeholder.prefix_numberFrom (by decide) hpre)
  have hnone : ∀ k ∈ Keyword.rowLimits, ∀ i,
      ¬Occurs k (numberFrom style after .outside locking) i := by
    intro k hk i ho
    obtain ⟨j, hj⟩ := Placeholder.exists_occurs_of_numberFrom
      (Text.mem_cuts_of_mem_rowLimits k hk) ho
    exact hno k hk j hj
  exact Statement.occurs_limited_iff w (settled_numberFrom (quote_closed_of_after hfront) hsettled)
    hstart hlead hnone hlimit hk

/-- The limit of its window is the only row limit of a page. -/
theorem limits_rows_once (h : Delimited r f) (hlock : p.LocksApart r) (hplan : p.plan r = .ok plan) :
    ∃ s front locking before behind, p.Paged r plan s front locking before behind := by
  obtain ⟨s, pageText, hs, hpage, rfl⟩ := eq_of_plan hplan
  have hstatement : Statement.ofRequest p.dialect r (.of r.source) f = .ok s := by
    rw [← hs, statement, h.filter_eq]
  have hclosed := Statement.ofRequest_closed h.source_closed h.table_closed h.filter_closed hstatement
  obtain ⟨front, locking, hframed, rfl, hlocking, hrow⟩ := Statement.exists_framed hclosed hpage
  obtain ⟨hsettled, hfront, hno⟩ := hframed.settled hclosed h.order_closed h.order_free
    (h.not_endsIn_take hlock hs)
  have hquote := quote_closed_of_after hfront
  generalize hused : Placeholder.highest p.dialect.placeholderStyle
    (Statement.limited p.dialect.limitSyntax (p.window r) front locking) = used
  have hpaged := Placeholder.restyle_eq_numberFrom p.dialect.placeholderStyle
    (Statement.limited p.dialect.limitSyntax (p.window r) front locking)
  rw [hused, Placeholder.numberFrom_limited _ used _ hquote] at hpaged
  refine ⟨s, front, locking, numberFrom p.dialect.placeholderStyle used .outside front,
    numberFrom p.dialect.placeholderStyle (used + UInt64.ofNat (Placeholder.count front)) .outside
      locking, ?_⟩
  exact
    { statement_eq := hs
      framed := hframed
      numbered := ⟨used, rfl, rfl⟩
      pageStatement_eq := hpaged
      occurs_iff := by
        intro hlimit k hk i
        dsimp only
        rw [hpaged]
        exact occurs_numbered_iff _ _ _ _ hsettled hfront hlocking hno hlimit hk
      of_rowNum := by
        intro hlimit
        refine ⟨?_, Text.hasTopLevel_eq_false_iff.mpr fun k hk i _ ho => ?_⟩
        · rw [hrow hlimit]
          rfl
        · exact settled_numberFrom hquote hsettled k hk i (ho.append [' '])
      ordered := by
        intro hneeds
        obtain ⟨i, ho⟩ := hframed.exists_orderBy (w := p.window r) hclosed hneeds hlocking
        exact Placeholder.isSome_topLevel?_restyle (by decide) ho }

/-- A limited statement with a filter and an order. -/
def limitedFive : Request :=
  { source := "SELECT a FROM t WHERE b = ? LIMIT 5;".toList
    parameters := [.text "x".toList]
    filter := .raw "c = ?".toList [.text "y".toList]
    order := ["ORDER BY a DESC".toList] }

theorem limits_rows_once_limitedFive :
    ∃ plan s front locking before behind,
      ({ dialect := .postgres } : Planner).plan limitedFive = .ok plan ∧
      plan.pageStatement =
        ("SELECT * FROM (SELECT a FROM t WHERE b = $1 AND (c = $2) LIMIT 5) AS pagehaus_page " ++
          "ORDER BY a DESC LIMIT 10 OFFSET 0").toList ∧
      ({ dialect := .postgres } : Planner).Paged limitedFive plan s front locking before behind := by
  have h : Delimited limitedFive ⟨"c = ?".toList, [.text "y".toList]⟩ :=
    { filter_eq := by rfl
      source_closed := by decide
      table_closed := nofun
      filter_closed := by decide
      order_closed := by decide
      source_ends := by decide
      table_ends := nofun
      filter_ends := by decide
      order_free := by decide }
  have hlock : ({ dialect := .postgres } : Planner).LocksApart limitedFive := by
    intro s i hs hlimited
    have hnormal : (({ dialect := .postgres } : Planner).statement limitedFive).toOption.map
        (fun s => Text.hasTopLevel Keyword.rowLimits 0 s.text) = some true := by decide +kernel
    rw [hs] at hnormal
    exact absurd (hlimited.symm.trans (Option.some.inj hnormal)) (by decide)
  obtain ⟨plan, hplan, -, hpage⟩ := exists_plan { dialect := .postgres } limitedFive
    ("SELECT COUNT(*) FROM (SELECT a FROM t WHERE b = $1 AND (c = $2) LIMIT 5) " ++
      "AS pagehaus_count").toList
    ("SELECT * FROM (SELECT a FROM t WHERE b = $1 AND (c = $2) LIMIT 5) AS pagehaus_page " ++
      "ORDER BY a DESC LIMIT 10 OFFSET 0").toList
    (by decide +kernel)
  obtain ⟨s, front, locking, before, behind, hpaged⟩ := limits_rows_once h hlock hplan
  exact ⟨plan, s, front, locking, before, behind, hplan, hpage, hpaged⟩

/-- A source whose last word in front of the locking clause becomes a row limit when the blank behind
it is trimmed. -/
def danglingLimit : Request :=
  { source := "SELECT * FROM t WHERE a = 1 LIMIT\u00a0 FOR UPDATE".toList }

/-- A set operation with a locking clause in its filter. -/
def lockingFilter : Request :=
  { source := "SELECT a FROM t UNION SELECT a FROM u".toList
    filter := .raw "a > 1 FOR UPDATE".toList [] }

/-- The first page has two row limits, and the second one a locking clause that its source does not
have. -/
theorem not_limited_once :
    (∃ plan, ({ dialect := .mysql } : Planner).plan danglingLimit = .ok plan ∧
      Delimited danglingLimit ⟨[], []⟩ ∧
      plan.pageStatement =
        "SELECT * FROM t WHERE a = 1 LIMIT LIMIT 10 OFFSET 0 FOR UPDATE".toList ∧
      Occurs Keyword.limit plan.pageStatement 27 ∧ Occurs Keyword.limit plan.pageStatement 33) ∧
    ∃ plan, ({ dialect := .mysql } : Planner).plan lockingFilter = .ok plan ∧
      Delimited lockingFilter ⟨"a > 1 FOR UPDATE".toList, []⟩ ∧
      plan.pageStatement =
        ("SELECT * FROM (SELECT a FROM t UNION SELECT a FROM u) AS pagehaus_source " ++
          "WHERE a > 1 LIMIT 10 OFFSET 0 FOR UPDATE").toList ∧
      Text.topLevel? Keyword.forUpdate 0 lockingFilter.source = none := by
  constructor
  · have h : Delimited danglingLimit ⟨[], []⟩ :=
      { filter_eq := by rfl
        source_closed := by decide +kernel
        table_closed := nofun
        filter_closed := by decide
        order_closed := by decide
        source_ends := by decide +kernel
        table_ends := nofun
        filter_ends := by decide
        order_free := by decide }
    obtain ⟨plan, hplan, -, hpage⟩ := exists_plan { dialect := .mysql } danglingLimit
      ("SELECT COUNT(*) FROM (SELECT * FROM t WHERE a = 1 LIMIT\u00a0 FOR UPDATE) " ++
        "AS pagehaus_count").toList
      "SELECT * FROM t WHERE a = 1 LIMIT LIMIT 10 OFFSET 0 FOR UPDATE".toList
      (by decide +kernel)
    refine ⟨plan, hplan, h, hpage, ?_, ?_⟩
    · rw [hpage]
      decide +kernel
    · rw [hpage]
      decide +kernel
  · have h : Delimited lockingFilter ⟨"a > 1 FOR UPDATE".toList, []⟩ :=
      { filter_eq := by rfl
        source_closed := by decide +kernel
        table_closed := nofun
        filter_closed := by decide
        order_closed := by decide
        source_ends := by decide +kernel
        table_ends := nofun
        filter_ends := by decide
        order_free := by decide }
    obtain ⟨plan, hplan, -, hpage⟩ := exists_plan { dialect := .mysql } lockingFilter
      ("SELECT COUNT(*) FROM (SELECT * FROM (SELECT a FROM t UNION SELECT a FROM u) " ++
        "AS pagehaus_source WHERE a > 1 FOR UPDATE) AS pagehaus_count").toList
      ("SELECT * FROM (SELECT a FROM t UNION SELECT a FROM u) AS pagehaus_source " ++
        "WHERE a > 1 LIMIT 10 OFFSET 0 FOR UPDATE").toList
      (by decide +kernel)
    exact ⟨plan, hplan, h, hpage, by decide +kernel⟩

end Planner

end PagedQuery
