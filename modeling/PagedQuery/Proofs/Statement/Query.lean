import Mathlib.Data.List.Forall2
import PagedQuery.Proofs.Statement.Body

/-!
# Queries by their clauses

A query is a select list and a row of clauses, each of them a keyword and a body:
the source, a condition, what groups rows or names windows, an order, what caps
the number of rows, and a lock. No body hides a keyword that begins a clause, so
a text is a query in one way only.
-/
namespace PagedQuery

open Text (Free Inert IsBody LeadsOff Occurs)

namespace Keyword

/-- What may stand between the condition and the order. -/
def grouping : List Text := [groupBy, having, window]

/-- The keywords by the part of a query that they begin, in the order of the parts. -/
def groups : List (List Text) :=
  [[fromClause], [whereClause], grouping, [orderBy], rowLimits, [forUpdate]]

theorem pairwise_groups : groups.Pairwise fun ks ks' => ∀ k ∈ ks, k ∉ ks' := by decide

theorem mem_clauses_of_mem_groups : ∀ ks ∈ groups, ∀ k ∈ ks, k ∈ clauses := by decide

theorem eq_of_prefix : ∀ k ∈ clauses, ∀ k' ∈ clauses, k <+: k' → k = k' := by decide

end Keyword

/-- A keyword and the text up to the next one. -/
structure Clause where
  keyword : Text
  body : Text
  deriving DecidableEq, Repr

namespace Clause

def text (c : Clause) : Text := c.keyword ++ c.body

def join (cs : List Clause) : Text := cs.flatMap text

def optional (keyword : Text) (body : Option Text) : List Clause := (body.map (mk keyword)).toList

/-- The clause begins with a keyword that its body does not hide. -/
structure WellFormed (c : Clause) : Prop where
  keyword_mem : c.keyword ∈ Keyword.clauses
  body_inert : Inert c.body

variable {c : Clause} {cs cs₁ cs₂ : List Clause} {k k' b b₁ b₂ t : Text} {i : Nat}

@[simp] theorem optional_none (k : Text) : optional k none = [] := rfl

@[simp] theorem optional_some (k w : Text) : optional k (some w) = [⟨k, w⟩] := rfl

theorem mem_optional_iff {body : Option Text} :
    c ∈ optional k body ↔ ∃ w ∈ body, c = ⟨k, w⟩ := by
  rw [optional, Option.mem_toList, Option.map_eq_some_iff]
  exact exists_congr fun w => and_congr_right fun _ => eq_comm

theorem keyword_of_mem_optional {body : Option Text} (h : c ∈ optional k body) : c.keyword = k := by
  obtain ⟨w, -, rfl⟩ := mem_optional_iff.mp h
  rfl

theorem optional_injective (k : Text) : Function.Injective (optional k) := by
  intro body₁ body₂ h
  cases body₁ <;> cases body₂ <;> simp_all

theorem join_cons (c : Clause) (cs : List Clause) : join (c :: cs) = c.text ++ join cs := rfl

theorem join_append (cs₁ cs₂ : List Clause) : join (cs₁ ++ cs₂) = join cs₁ ++ join cs₂ :=
  List.flatMap_append

theorem WellFormed.mem_cuts (h : c.WellFormed) : c.keyword ∈ Keyword.cuts :=
  Keyword.mem_cuts_of_mem_clauses _ h.keyword_mem

theorem WellFormed.closed (h : c.WellFormed) : Place.Closed c.text :=
  (Keyword.closed_of_mem_heads (Keyword.mem_heads_of_mem_cuts h.mem_cuts)).append
    h.body_inert.closed

theorem WellFormed.prefix_join (h : c.WellFormed) (cs : List Clause) :
    c.keyword <+: Text.fold (join (c :: cs)) := by
  have hfold := Keyword.fold_of_mem_heads _ (Keyword.mem_heads_of_mem_cuts h.mem_cuts)
  rw [join_cons, text, List.append_assoc, Text.fold_append, hfold]
  exact List.prefix_append _ _

theorem join_eq_nil_or {ks : List Text} (hcs : ∀ c ∈ cs, c.WellFormed)
    (hks : ∀ c ∈ cs, c.keyword ∈ ks) : join cs = [] ∨ ∃ k ∈ ks, k <+: Text.fold (join cs) := by
  cases cs with
  | nil => exact Or.inl rfl
  | cons c cs =>
    exact Or.inr ⟨c.keyword, hks c List.mem_cons_self, (hcs c List.mem_cons_self).prefix_join cs⟩

theorem leadsOff_join_append (hcs : ∀ c ∈ cs, c.WellFormed) (ht : LeadsOff t) :
    LeadsOff (join cs ++ t) := by
  cases cs with
  | nil => exact ht
  | cons c cs =>
    rw [join_cons, text, List.append_assoc, List.append_assoc]
    exact Text.leadsOff_keyword (hcs c List.mem_cons_self).mem_cuts _

theorem closed_join (hcs : ∀ c ∈ cs, c.WellFormed) : Place.Closed (join cs) := by
  induction cs with
  | nil => exact Place.closed_of_isPlain rfl
  | cons c cs ih =>
    rw [join_cons]
    have hrest := ih fun c hc => hcs c (List.mem_cons_of_mem _ hc)
    exact (hcs c List.mem_cons_self).closed.append hrest

/-- In a row of clauses a keyword occurs only as the keyword of one of them. -/
theorem not_occurs_join (hk' : k' ∈ Keyword.heads) (hb : Inert b) (hcs : ∀ c ∈ cs, c.WellFormed)
    (hk : k ∈ Keyword.clauses) (hne : ∀ c ∈ cs, c.keyword ≠ k) (ht : LeadsOff t)
    (hi : i < (k' ++ (b ++ join cs)).length) (hhead : i ≠ 0 ∨ k ≠ k') :
    ¬Occurs k (k' ++ (b ++ join cs) ++ t) i := by
  have hcut := Keyword.mem_cuts_of_mem_clauses k hk
  induction cs generalizing k' b i with
  | nil =>
    have hnil : k' ++ (b ++ join []) = k' ++ b := by rw [join, List.flatMap_nil, List.append_nil]
    rw [hnil, List.append_assoc]
    rw [hnil, List.length_append] at hi
    exact Text.not_occurs_clause hcut hk' (hb.free k hk) ht hi hhead
  | cons c cs ih =>
    have hc := hcs c List.mem_cons_self
    have hsplit : k' ++ (b ++ join (c :: cs)) ++ t =
        k' ++ b ++ (c.keyword ++ (c.body ++ join cs) ++ t) := by
      simp only [join_cons, text, List.append_assoc]
    rw [hsplit]
    rcases Nat.lt_or_ge i (k' ++ b).length with hlt | hge
    · rw [List.append_assoc]
      rw [List.length_append] at hlt
      refine Text.not_occurs_clause hcut hk' (hb.free k hk) ?_ hlt hhead
      rw [List.append_assoc]
      exact Text.leadsOff_keyword hc.mem_cuts _
    · obtain ⟨j, rfl⟩ := Nat.exists_eq_add_of_le hge
      have hclosed := (Keyword.closed_of_mem_heads hk').append hb.closed
      rw [Text.occurs_append_right hclosed.1]
      refine ih (Keyword.mem_heads_of_mem_cuts hc.mem_cuts) hc.body_inert
        (fun c hc => hcs c (List.mem_cons_of_mem _ hc))
        (fun c hc => hne c (List.mem_cons_of_mem _ hc)) ?_
        (Or.inr (hne c List.mem_cons_self).symm)
      simp only [join_cons, text, List.length_append] at hi ⊢
      omega

theorem firstTopLevel?_body (hb : Inert b) (hcs : ∀ c ∈ cs, c.WellFormed) :
    (Text.firstTopLevel? Keyword.clauses 0 (' ' :: b ++ join cs)).getD
      (' ' :: b ++ join cs).length = (' ' :: b).length := by
  have hclosed : Place.Closed (' ' :: b) :=
    (Place.closed_of_isPlain (t := [' ']) (by decide)).append hb.closed
  have hlead : LeadsOff (join cs) := by
    have := leadsOff_join_append hcs Text.leadsOff_nil
    rwa [List.append_nil] at this
  refine Text.firstTopLevel?_append Keyword.mem_cuts_of_mem_clauses hclosed.1 (Nat.zero_le _) ?_
    (join_eq_nil_or hcs fun c hc => (hcs c hc).keyword_mem)
  intro k hk i _ hi
  exact Text.not_occurs_of_free (Keyword.mem_cuts_of_mem_clauses k hk) (hb.free k hk) hlead hi

theorem cut_injective (hb₁ : Inert b₁) (hb₂ : Inert b₂) (h₁ : ∀ c ∈ cs₁, c.WellFormed)
    (h₂ : ∀ c ∈ cs₂, c.WellFormed) (h : b₁ ++ join cs₁ = b₂ ++ join cs₂) :
    b₁ = b₂ ∧ join cs₁ = join cs₂ := by
  have hlen := firstTopLevel?_body hb₁ h₁
  rw [List.cons_append, h, ← List.cons_append, firstTopLevel?_body hb₂ h₂, List.length_cons,
    List.length_cons, Nat.add_right_cancel_iff] at hlen
  exact List.append_inj h hlen.symm

/-- A text is cut into a body and clauses in one way only. -/
theorem join_injective (hb₁ : Inert b₁) (hb₂ : Inert b₂) (h₁ : ∀ c ∈ cs₁, c.WellFormed)
    (h₂ : ∀ c ∈ cs₂, c.WellFormed) (h : b₁ ++ join cs₁ = b₂ ++ join cs₂) :
    b₁ = b₂ ∧ cs₁ = cs₂ := by
  induction cs₁ generalizing b₁ b₂ cs₂ with
  | nil =>
    obtain ⟨hb, hjoin⟩ := cut_injective hb₁ hb₂ h₁ h₂ h
    refine ⟨hb, ?_⟩
    cases cs₂ with
    | nil => rfl
    | cons c₂ cs₂ =>
      have hne := Keyword.ne_nil_of_mem_cuts (h₂ c₂ List.mem_cons_self).mem_cuts
      rw [join_cons, text, List.append_assoc] at hjoin
      exact absurd (List.append_eq_nil_iff.mp hjoin.symm).1 hne
  | cons c₁ cs₁ ih =>
    obtain ⟨hb, hjoin⟩ := cut_injective hb₁ hb₂ h₁ h₂ h
    have hc₁ := h₁ c₁ List.mem_cons_self
    refine ⟨hb, ?_⟩
    cases cs₂ with
    | nil =>
      rw [join_cons, text, List.append_assoc] at hjoin
      exact absurd (List.append_eq_nil_iff.mp hjoin).1 (Keyword.ne_nil_of_mem_cuts hc₁.mem_cuts)
    | cons c₂ cs₂ =>
      have hc₂ := h₂ c₂ List.mem_cons_self
      have hkeyword : c₁.keyword = c₂.keyword := by
        have hp₁ := hc₁.prefix_join cs₁
        have hp₂ := hc₂.prefix_join cs₂
        rw [hjoin] at hp₁
        rcases List.prefix_or_prefix_of_prefix hp₁ hp₂ with hp | hp
        · exact Keyword.eq_of_prefix _ hc₁.keyword_mem _ hc₂.keyword_mem hp
        · exact (Keyword.eq_of_prefix _ hc₂.keyword_mem _ hc₁.keyword_mem hp).symm
      rw [join_cons, join_cons, text, text, hkeyword, List.append_assoc, List.append_assoc] at hjoin
      obtain ⟨hbody, hrest⟩ := ih hc₁.body_inert hc₂.body_inert
        (fun c hc => h₁ c (List.mem_cons_of_mem _ hc))
        (fun c hc => h₂ c (List.mem_cons_of_mem _ hc)) (List.append_cancel_left hjoin)
      have hc : c₁ = c₂ := by
        cases c₁
        cases c₂
        simp_all only
      rw [hc, hrest]

/-- Every clause of every row begins with a keyword of the group of the row. -/
abbrev Grouped (groups : List (List Text)) (rows : List (List Clause)) : Prop :=
  List.Forall₂ (fun ks cs => ∀ c ∈ cs, c.keyword ∈ ks) groups rows

theorem exists_group {groups : List (List Text)} {rows : List (List Clause)}
    (hrows : Grouped groups rows) (hc : c ∈ rows.flatten) : ∃ ks ∈ groups, c.keyword ∈ ks := by
  obtain ⟨row, hrow, hmem⟩ := List.mem_flatten.mp hc
  obtain ⟨n, hn, rfl⟩ := List.getElem_of_mem hrow
  have hn' : n < groups.length := by rwa [hrows.length_eq]
  exact ⟨groups[n], List.getElem_mem hn', hrows.get hn' hn c hmem⟩

theorem filter_group {ks : List Text} {groups : List (List Text)} {rows : List (List Clause)}
    (hlater : ∀ ks' ∈ groups, ∀ k ∈ ks, k ∉ ks') (hrows : Grouped groups rows)
    (hcs : ∀ c ∈ cs, c.keyword ∈ ks) :
    (cs ++ rows.flatten).filter (fun c => c.keyword ∈ ks) = cs := by
  have hrest : rows.flatten.filter (fun c => c.keyword ∈ ks) = [] := by
    refine List.filter_eq_nil_iff.mpr fun c hc => ?_
    obtain ⟨ks', hks', hkeyword⟩ := exists_group hrows hc
    rw [decide_eq_true_iff]
    exact fun hk => hlater ks' hks' _ hk hkeyword
  rw [List.filter_append, hrest, List.append_nil]
  exact List.filter_eq_self.mpr fun c hc => decide_eq_true (hcs c hc)

/-- Rows of clauses with a group of keywords for each row, no keyword in two groups, can be told
from the clauses alone. -/
theorem flatten_injective {groups : List (List Text)} {rows₁ rows₂ : List (List Clause)}
    (hgroups : groups.Pairwise fun ks ks' => ∀ k ∈ ks, k ∉ ks') (h₁ : Grouped groups rows₁)
    (h₂ : Grouped groups rows₂) (h : rows₁.flatten = rows₂.flatten) : rows₁ = rows₂ := by
  induction hgroups generalizing rows₁ rows₂ with
  | nil =>
    cases h₁
    cases h₂
    rfl
  | cons hlater _ ih =>
    obtain _ | ⟨hcs₁, hrows₁⟩ := h₁
    obtain _ | ⟨hcs₂, hrows₂⟩ := h₂
    rw [List.flatten_cons, List.flatten_cons] at h
    have hfirst := filter_group hlater hrows₁ hcs₁
    rw [h, filter_group hlater hrows₂ hcs₂] at hfirst
    rw [hfirst] at h ⊢
    rw [ih hrows₁ hrows₂ (List.append_cancel_left h)]

end Clause

/-- The parts of a statement. The lock is the text behind `FOR UPDATE`. -/
structure Query where
  selectList : Text
  source : Text
  condition : Option Text
  grouping : List Clause
  order : Option Text
  limit : List Clause
  locking : Option Text
  deriving DecidableEq, Repr

namespace Query

/-- The clauses of the parts, with a row for each group of keywords. -/
def parts (q : Query) : List (List Clause) :=
  [[⟨Keyword.fromClause, q.source⟩], Clause.optional Keyword.whereClause q.condition, q.grouping,
    Clause.optional Keyword.orderBy q.order, q.limit, Clause.optional Keyword.forUpdate q.locking]

def clauses (q : Query) : List Clause := q.parts.flatten

def text (q : Query) : Text := Keyword.select ++ (q.selectList ++ Clause.join q.clauses)

/-- The parts are bodies of clauses, and each clause stands in its part. -/
structure WellFormed (q : Query) : Prop where
  selectList_body : IsBody q.selectList
  source_body : IsBody q.source
  condition_body : ∀ w ∈ q.condition, IsBody w
  grouping_body : ∀ c ∈ q.grouping, c.keyword ∈ Keyword.grouping ∧ IsBody c.body
  order_body : ∀ o ∈ q.order, IsBody o
  limit_body : ∀ c ∈ q.limit, c.keyword ∈ Keyword.rowLimits ∧ IsBody c.body
  locking_inert : ∀ l ∈ q.locking, Inert l

variable {q q₁ q₂ : Query}

theorem WellFormed.grouped (h : q.WellFormed) : Clause.Grouped Keyword.groups q.parts := by
  have hoption : ∀ (k : Text) (body : Option Text), ∀ c ∈ Clause.optional k body,
      c.keyword ∈ [k] := by
    intro k body c hc
    exact List.mem_singleton.mpr (Clause.keyword_of_mem_optional hc)
  have hsource : ∀ c ∈ [Clause.mk Keyword.fromClause q.source],
      c.keyword ∈ [Keyword.fromClause] := by
    intro c hc
    rw [List.mem_singleton.mp hc]
    exact List.mem_singleton_self _
  exact .cons hsource (.cons (hoption _ _) (.cons (fun c hc => (h.grouping_body c hc).1)
    (.cons (hoption _ _) (.cons (fun c hc => (h.limit_body c hc).1) (.cons (hoption _ _) .nil)))))

theorem WellFormed.body_inert (h : q.WellFormed) : ∀ c ∈ q.clauses, Inert c.body := by
  have hoption : ∀ (k : Text) (body : Option Text), (∀ w ∈ body, Inert w) →
      ∀ c ∈ Clause.optional k body, Inert c.body := by
    intro k body hbody c hc
    obtain ⟨w, hw, rfl⟩ := Clause.mem_optional_iff.mp hc
    exact hbody w hw
  simp only [clauses, parts, List.flatten_cons, List.flatten_nil, List.append_nil, List.mem_append]
  rintro c (hc | hc | hc | hc | hc | hc)
  · rw [List.mem_singleton.mp hc]
    exact h.source_body.inert
  · exact hoption _ _ (fun w hw => (h.condition_body w hw).inert) c hc
  · exact (h.grouping_body c hc).2.inert
  · exact hoption _ _ (fun o ho => (h.order_body o ho).inert) c hc
  · exact (h.limit_body c hc).2.inert
  · exact hoption _ _ h.locking_inert c hc

theorem WellFormed.clause (h : q.WellFormed) : ∀ c ∈ q.clauses, c.WellFormed := by
  intro c hc
  refine ⟨?_, h.body_inert c hc⟩
  obtain ⟨ks, hks, hkeyword⟩ := Clause.exists_group h.grouped hc
  exact Keyword.mem_clauses_of_mem_groups ks hks _ hkeyword

theorem WellFormed.closed (h : q.WellFormed) : Place.Closed q.text :=
  (Keyword.closed_of_mem_heads (by decide)).append
    (h.selectList_body.closed.append (Clause.closed_join h.clause))

/-- A text is a query in one way only. -/
theorem text_injective (h₁ : q₁.WellFormed) (h₂ : q₂.WellFormed) (h : q₁.text = q₂.text) :
    q₁ = q₂ := by
  obtain ⟨hselect, hclauses⟩ := Clause.join_injective h₁.selectList_body.inert
    h₂.selectList_body.inert h₁.clause h₂.clause (List.append_cancel_left h)
  have hparts := Clause.flatten_injective Keyword.pairwise_groups h₁.grouped h₂.grouped hclauses
  simp only [parts, List.cons.injEq, Clause.mk.injEq, and_true, true_and] at hparts
  obtain ⟨hsource, hcondition, hgrouping, horder, hlimit, hlocking⟩ := hparts
  have hcondition := Clause.optional_injective _ hcondition
  have horder := Clause.optional_injective _ horder
  have hlocking := Clause.optional_injective _ hlocking
  cases q₁
  cases q₂
  simp only at hselect hsource hcondition hgrouping horder hlimit hlocking
  subst_vars
  rfl

/-- The clauses in front of the order. -/
def leading (q : Query) : List Clause :=
  ⟨Keyword.fromClause, q.source⟩ :: Clause.optional Keyword.whereClause q.condition ++ q.grouping

def ordering (q : Query) : List Clause := Clause.optional Keyword.orderBy q.order

/-- The clauses behind the order. -/
def closing (q : Query) : List Clause :=
  q.limit ++ Clause.optional Keyword.forUpdate q.locking

/-- The text in front of the order. -/
def head (q : Query) : Text := Keyword.select ++ (q.selectList ++ Clause.join q.leading)

theorem clauses_eq_leading (q : Query) : q.clauses = q.leading ++ (q.ordering ++ q.closing) := by
  simp only [clauses, parts, leading, ordering, closing, List.flatten_cons, List.flatten_nil,
    List.append_nil, List.append_assoc, List.cons_append, List.nil_append]

theorem text_eq_head (q : Query) :
    q.text = q.head ++ (Clause.join q.ordering ++ Clause.join q.closing) := by
  simp only [text, head, clauses_eq_leading, Clause.join_append, List.append_assoc]

theorem WellFormed.leading_clause (h : q.WellFormed) : ∀ c ∈ q.leading, c.WellFormed :=
  fun c hc => h.clause c (q.clauses_eq_leading ▸ List.mem_append_left _ hc)

theorem WellFormed.ordering_clause (h : q.WellFormed) : ∀ c ∈ q.ordering, c.WellFormed :=
  fun c hc => h.clause c
    (q.clauses_eq_leading ▸ List.mem_append_right _ (List.mem_append_left _ hc))

theorem WellFormed.closing_clause (h : q.WellFormed) : ∀ c ∈ q.closing, c.WellFormed :=
  fun c hc => h.clause c
    (q.clauses_eq_leading ▸ List.mem_append_right _ (List.mem_append_right _ hc))

theorem WellFormed.closing_keyword (h : q.WellFormed) :
    ∀ c ∈ q.closing, c.keyword ∈ Keyword.limits := by
  intro c hc
  rcases List.mem_append.mp hc with hc | hc
  · exact List.mem_append_left _ (h.limit_body c hc).1
  · rw [Clause.keyword_of_mem_optional hc]
    decide

theorem WellFormed.head_closed (h : q.WellFormed) : Place.Closed q.head :=
  (Keyword.closed_of_mem_heads (by decide)).append
    (h.selectList_body.closed.append (Clause.closed_join h.leading_clause))

/-- The clauses behind the condition. -/
def trailing (q : Query) : List Clause := q.grouping ++ (q.ordering ++ q.closing)

theorem WellFormed.trailing_clause (h : q.WellFormed) : ∀ c ∈ q.trailing, c.WellFormed := by
  intro c hc
  refine h.clause c ?_
  simp only [clauses, parts, trailing, ordering, closing, List.flatten_cons, List.flatten_nil,
    List.append_nil, List.mem_append] at hc ⊢
  exact Or.inr (Or.inr hc)

theorem WellFormed.trailing_keyword (h : q.WellFormed) :
    ∀ c ∈ q.trailing, c.keyword ∈ Keyword.trailing := by
  intro c hc
  rcases List.mem_append.mp hc with hc | hc
  · exact (by decide : ∀ k ∈ Keyword.grouping, k ∈ Keyword.trailing) _ (h.grouping_body c hc).1
  rcases List.mem_append.mp hc with hc | hc
  · rw [Clause.keyword_of_mem_optional hc]
    decide
  · exact List.mem_append_right _ (h.closing_keyword c hc)

/-- A query without grouping, order, row limit and lock. -/
def bare (selectList source : Text) (condition : Option Text) : Query :=
  { selectList, source, condition, grouping := [], order := none, limit := [], locking := none }

theorem wellFormed_bare {selectList source : Text} {condition : Option Text}
    (hselect : IsBody selectList) (hsource : IsBody source)
    (hcondition : ∀ w ∈ condition, IsBody w) : (bare selectList source condition).WellFormed where
  selectList_body := hselect
  source_body := hsource
  condition_body := hcondition
  grouping_body _ hc := absurd hc List.not_mem_nil
  order_body o ho := absurd ho (Option.not_mem_none o)
  limit_body _ hc := absurd hc List.not_mem_nil
  locking_inert l hl := absurd hl (Option.not_mem_none l)

theorem text_bare (selectList source : Text) (condition : Option Text) :
    (bare selectList source condition).text = Keyword.select ++ (selectList ++
      (Keyword.fromClause ++ (source ++
        Clause.join (Clause.optional Keyword.whereClause condition)))) := by
  simp [bare, text, clauses, parts, Clause.join, Clause.text]

/-- The outline of a query has all that may follow a condition for its tail. -/
def outline (q : Query) : Outline := ⟨q.selectList, q.source, q.condition, Clause.join q.trailing⟩

theorem outline_text (q : Query) : q.outline.text = q.text := by
  cases hc : q.condition <;>
    simp [outline, Outline.text, Outline.body, Outline.front, Outline.selection, text, clauses,
      parts, trailing, ordering, closing, Clause.join, Clause.text, hc]

theorem WellFormed.outline (h : q.WellFormed) : q.outline.WellFormed where
  selectList_closed := h.selectList_body.closed
  source_closed := h.source_body.closed
  condition_closed w hw := (h.condition_body w hw).closed
  selectList_free := h.selectList_body.inert.free _ (by decide)
  source_free_where := h.source_body.inert.free _ (by decide)
  source_free k hk := h.source_body.inert.free k (Keyword.mem_clauses_of_mem_trailing hk)
  condition_free w hw k hk :=
    (h.condition_body w hw).inert.free k (Keyword.mem_clauses_of_mem_trailing hk)
  tail_head := Clause.join_eq_nil_or h.trailing_clause h.trailing_keyword
  tail_where := by
    have hclause := h.trailing_clause
    have hkeyword := h.trailing_keyword
    unfold Query.outline
    cases hcs : q.trailing with
    | nil => exact (by decide : Text.topLevel? Keyword.whereClause 0 [] = none)
    | cons c cs =>
      rw [hcs] at hclause hkeyword
      have hc := hclause c List.mem_cons_self
      have hne : ∀ c' ∈ c :: cs, c'.keyword ≠ Keyword.whereClause := by
        intro c' hc' e
        exact absurd (e ▸ hkeyword c' hc') (by decide)
      refine Text.topLevel?_eq_none_iff.mpr fun i _ ho => ?_
      rw [Clause.join_cons, Clause.text, List.append_assoc] at ho
      refine Clause.not_occurs_join (Keyword.mem_heads_of_mem_cuts hc.mem_cuts) hc.body_inert
        (fun c hc => hclause c (List.mem_cons_of_mem _ hc)) (by decide : Keyword.whereClause ∈ _)
        (fun c hc => hne c (List.mem_cons_of_mem _ hc)) Text.leadsOff_nil ho.1
        (Or.inr (hne c List.mem_cons_self).symm) ?_
      rwa [List.append_nil]

end Query

end PagedQuery
