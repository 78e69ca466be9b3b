import PagedQuery.Proofs.Statement.Query

/-!
# Queries under a filter

Normalization makes a query of a query. The fragment of a filter goes into its
condition and nothing else changes, blanks at the end of a body apart; a query
with a set operation becomes the derived table of a query with the fragment for
its condition.
-/
namespace PagedQuery

open Text (IsBody)

namespace Query

def neutral : Text := "1=1".toList

/-- The query with the fragment conjoined to its condition. -/
def restricted (q : Query) (fragment : Text) : Query :=
  match q.condition with
  | none =>
    if fragment ≠ [] then
      { q with
        source := Text.trimEnd q.source
        condition := some (neutral ++ Outline.term fragment) }
    else if q.trailing ≠ [] then
      { q with source := Text.trimEnd q.source, condition := some neutral }
    else q
  | some w =>
    if fragment = [] then q
    else if (Text.topLevel? Keyword.or 0 (Text.trim w)).isSome then
      { q with condition := some (Predicate.parenthesized (Text.trim w) ++ Outline.term fragment) }
    else { q with condition := some (Text.trimEnd w ++ Outline.term fragment) }

/-- The rows of the query that the fragment holds of. -/
def enclosed (q : Query) (d : Dialect) (fragment : Text) : Query :=
  bare "*".toList (d.derivedTable q.text Statement.sourceAlias) (some fragment)

variable {q : Query} {fragment : Text}

theorem isBody_neutral : IsBody neutral := by decide

theorem WellFormed.withCondition (h : q.WellFormed) {source w : Text} (hsource : IsBody source)
    (hw : IsBody w) : { q with source, condition := some w }.WellFormed where
  selectList_body := h.selectList_body
  source_body := hsource
  condition_body := by
    intro v hv
    rw [← Option.mem_some.mp hv]
    exact hw
  grouping_body := h.grouping_body
  order_body := h.order_body
  limit_body := h.limit_body
  locking_inert := h.locking_inert

theorem WellFormed.restricted (h : q.WellFormed) (hf : Place.Closed fragment) :
    (q.restricted fragment).WellFormed := by
  unfold Query.restricted
  cases hc : q.condition with
  | none =>
    have hneutral : Text.trimEnd neutral = neutral := by decide
    simp only
    split
    · exact h.withCondition h.source_body.trimEnd (isBody_neutral.append_term hneutral hf)
    · split
      · exact h.withCondition h.source_body.trimEnd isBody_neutral
      · exact h
  | some w =>
    have hw := h.condition_body w hc
    simp only
    split
    · exact h
    · split
      · exact h.withCondition h.source_body
          ((Text.isBody_parenthesized hw.closed.trim).append_term (Text.trimEnd_parenthesized _) hf)
      · exact h.withCondition h.source_body
          (hw.trimEnd.append_term (Text.trimEnd_trimEnd w) hf)

theorem WellFormed.trailing_eq_nil_iff (h : q.WellFormed) :
    q.trailing = [] ↔ q.outline.tail = [] := by
  have hclause := h.trailing_clause
  unfold Query.outline
  cases hcs : q.trailing with
  | nil => exact ⟨fun _ => rfl, fun _ => rfl⟩
  | cons c cs =>
    rw [hcs] at hclause
    have hne := Keyword.ne_nil_of_mem_cuts (hclause c List.mem_cons_self).mem_cuts
    simp [Clause.join_cons, Clause.text, hne]

theorem text_withCondition (q : Query) (source w : Text) :
    ({ q with source, condition := some w } : Query).text =
      q.outline.selection ++ Keyword.fromClause ++ source ++ Keyword.whereClause ++ w ++
        q.outline.tail := by
  rw [← outline_text]
  rfl

theorem WellFormed.restricted_text (h : q.WellFormed) (fragment : Text) :
    (q.restricted fragment).text = q.outline.restricted fragment := by
  have hfront : Text.trimEnd q.outline.front =
      q.outline.selection ++ Keyword.fromClause ++ Text.trimEnd q.source :=
    Text.trimEnd_append _ h.source_body.trimEnd_ne_nil
  unfold Query.restricted Outline.restricted
  have hcond : q.outline.condition = q.condition := rfl
  rw [hcond]
  have hneutral : Statement.neutralWhere = Keyword.whereClause ++ neutral := by decide
  cases hc : q.condition with
  | none =>
    simp only [ne_eq, ← h.trailing_eq_nil_iff, hfront]
    split
    · rw [text_withCondition, hneutral]
      simp only [List.append_assoc]
    · split
      · rw [text_withCondition, hneutral]
        simp only [List.append_assoc]
      · exact q.outline_text.symm
  | some w =>
    have hbody : Text.trimEnd q.outline.body =
        q.outline.front ++ Keyword.whereClause ++ Text.trimEnd w := by
      simp only [Outline.body, hcond, hc]
      exact Text.trimEnd_append _ (h.condition_body w hc).trimEnd_ne_nil
    have htext : ∀ w, ({ q with condition := some w } : Query).text =
        q.outline.front ++ Keyword.whereClause ++ w ++ q.outline.tail :=
      q.text_withCondition q.source
    simp only [hbody]
    split
    · exact q.outline_text.symm
    · split
      · rw [htext]
        simp only [List.append_assoc]
      · rw [htext]
        simp only [List.append_assoc]

/-- Only the source and the condition of a query change under a filter. -/
theorem restricted_eq (q : Query) (fragment : Text) :
    ∃ source condition, q.restricted fragment = { q with source, condition } := by
  unfold restricted
  split
  · split
    · exact ⟨_, _, rfl⟩
    · split
      · exact ⟨_, _, rfl⟩
      · exact ⟨q.source, q.condition, rfl⟩
  · split
    · exact ⟨q.source, q.condition, rfl⟩
    · split
      · exact ⟨q.source, _, rfl⟩
      · exact ⟨q.source, _, rfl⟩

theorem WellFormed.enclosed (h : q.WellFormed) (d : Dialect) (hf : IsBody fragment) :
    (q.enclosed d fragment).WellFormed := by
  have hsource := Text.isBody_derivedTable d h.closed (by decide : IsBody Statement.sourceAlias)
  refine wellFormed_bare (by decide) hsource fun w hw => ?_
  rw [← Option.mem_some.mp hw]
  exact hf

theorem enclosed_text (q : Query) (d : Dialect) (fragment : Text) :
    (q.enclosed d fragment).text =
      Statement.selectAll (d.derivedTable q.text Statement.sourceAlias) ++ Keyword.whereClause ++
        fragment := by
  have hselect : "SELECT * FROM ".toList =
      Keyword.select ++ ("*".toList ++ Keyword.fromClause) := by decide
  unfold Statement.selectAll
  rw [hselect, enclosed, text_bare]
  simp [Clause.join, Clause.text]

end Query

namespace Statement

/-- The normalized statement of a query is a query, and without a set operation it has the same
select list and grouping. -/
theorem ofRequest_of_query {r : Request} {q : Query} {outer : Text} (h : q.WellFormed)
    (hsource : r.source = q.text ++ outer) (hbare : bareSource r.source = q.text) (d : Dialect)
    {f : Fragment} (hf : f.text = [] ∨ IsBody f.text) :
    ∃ q' : Query, ∃ parameters, q'.WellFormed ∧
      ofRequest d r (.of r.source) f = .ok ⟨q'.text, parameters⟩ ∧
      ((Profile.of r.source).hasSetOperation = false →
        q'.selectList = q.selectList ∧ q'.grouping = q.grouping) := by
  have hbase : base r (.of r.source) = .ok q.outline.text := by
    rw [← q.outline_text] at hsource hbare
    exact base_of_outline h.outline hsource hbare
  cases hset : (Profile.of r.source).hasSetOperation with
  | false =>
    have hclosed : Place.Closed f.text := by
      rcases hf with hf | hf
      · rw [hf]
        exact Place.closed_of_isPlain rfl
      · exact hf.closed
    obtain ⟨parameters, hnormal⟩ := ofRequest_of_outline h.outline hbase hset d f
    refine ⟨q.restricted f.text, parameters, h.restricted hclosed, ?_, fun _ => ?_⟩
    · rw [hnormal, h.restricted_text]
    · obtain ⟨source, condition, heq⟩ := q.restricted_eq f.text
      rw [heq]
      exact ⟨rfl, rfl⟩
  | true =>
    rw [q.outline_text] at hbase
    have hnormal : ofRequest d r (.of r.source) f =
        .ok (restrictSetOperation d q.text r.parameters f) := by
      simp only [ofRequest, hbase, hset, if_true]
    rcases hf with hf | hf
    · refine ⟨q, r.parameters, h, ?_, fun hfalse => absurd hfalse (by decide)⟩
      rw [hnormal, restrictSetOperation, hf]
      rfl
    · refine ⟨q.enclosed d f.text, r.parameters ++ f.values, h.enclosed d hf, ?_,
        fun hfalse => absurd hfalse (by decide)⟩
      have hne : f.text.isEmpty = false := by
        cases hnil : f.text with
        | nil => exact absurd (hnil ▸ hf) (by decide)
        | cons => rfl
      rw [hnormal, restrictSetOperation, hne, q.enclosed_text]
      rfl

end Statement

end PagedQuery
