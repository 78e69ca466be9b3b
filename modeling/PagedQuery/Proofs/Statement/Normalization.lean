import PagedQuery.Proofs.Statement.Outline

/-!
# Normalized statements

A source that is written out as a whole statement is taken as it stands, and the
filter of a request changes it clause by clause: the fragment is conjoined to
the condition in front of the tail, a condition with `OR` at the top level is
put in parentheses first, and a statement without condition gets a neutral one.
-/
namespace PagedQuery.Statement

theorem startsWith_select (t : Text) :
    Text.startsWith "SELECT ".toList (Keyword.select ++ t) = true := by
  have hfold : Text.fold Keyword.select = Keyword.select :=
    Keyword.fold_of_mem_heads _ (by decide)
  have hdrop : (Keyword.select ++ Text.fold t).dropWhile (· = ' ') =
      Keyword.select ++ Text.fold t := by
    rw [List.dropWhile_append]
    rfl
  rw [Text.startsWith, Text.fold_append, hfold, hdrop, List.isPrefixOf_iff_prefix]
  exact List.prefix_append _ _

theorem mentions_of_occurs {k t : Text} {i : Nat} (h : Text.Occurs k t i) :
    Text.mentions k t = true :=
  Text.contains_iff.mpr (h.2.2.isInfix.trans (List.drop_suffix i _).isInfix)

/-- Nothing is taken from a source without blanks around it and semicolons at its end. -/
theorem bareSource_eq_self {t : Text} (htrim : Text.trim t = t) (hend : t.getLast? ≠ some ';') :
    bareSource t = t := by
  have hsemi : Text.trimEndBy (· = ';') t = t := by
    refine Text.trimEndBy_eq_self fun c hc => decide_eq_false ?_
    rintro rfl
    exact hend hc
  rw [bareSource, htrim, hsemi, Text.trimEnd_of_trim htrim]

/-- A whole statement stands for itself. -/
theorem base_of_select {r : Request} {t : Text} (hsource : r.source = Keyword.select ++ t)
    (hfrom : Text.mentions Keyword.fromClause r.source = true) :
    base r (.of r.source) = .ok (bareSource r.source) := by
  have hselect : (Profile.of r.source).hasSelect = true := by
    rw [hsource]
    simp only [Profile.of, startsWith_select, Bool.true_or]
  have hfrom' : (Profile.of r.source).hasFrom = true := hfrom
  simp only [base, hselect, hfrom', if_true]

theorem requiredTable_eq {r : Request} {source table : Text}
    (h : requiredTable r source = .ok table) : ∃ t ∈ r.table, table = Text.trim t := by
  unfold requiredTable at h
  cases ht : r.table with
  | none =>
    rw [ht] at h
    exact absurd h (by simp)
  | some t =>
    refine ⟨t, rfl, ?_⟩
    rw [ht, Option.map_some] at h
    split at h
    · exact absurd h (by simp)
    · exact absurd h (by simp)
    · rename_i heq
      exact (Except.ok.inj h).symm.trans (Option.some.inj heq).symm

/-- Blanks and semicolons behind a whole statement do not belong to it. -/
theorem base_of_outline {r : Request} {o : Outline} {outer : Text} (h : o.WellFormed)
    (hsource : r.source = o.text ++ outer) (hbare : bareSource r.source = o.text) :
    base r (.of r.source) = .ok o.text := by
  obtain ⟨rest, htext, -, -⟩ := o.text_eq_selection
  have hselect : r.source = Keyword.select ++
      (o.selectList ++ (Keyword.fromClause ++ (o.source ++ rest) ++ outer)) := by
    rw [hsource, htext, Outline.selection, List.append_assoc, List.append_assoc]
  have hfrom : Text.mentions Keyword.fromClause r.source = true := by
    rw [hsource]
    exact mentions_of_occurs ((Text.occurs_of_topLevel? h.from_at).append outer)
  rw [base_of_select hselect hfrom, hbare]

/-- The source is normalized clause by clause. -/
theorem ofRequest_of_outline {r : Request} {o : Outline} (h : o.WellFormed)
    (hbase : base r (.of r.source) = .ok o.text)
    (hset : (Profile.of r.source).hasSetOperation = false) (d : Dialect) (f : Fragment) :
    ∃ parameters, ofRequest d r (.of r.source) f = .ok ⟨o.restricted f.text, parameters⟩ := by
  obtain ⟨clauses, hclauses⟩ : ∃ clauses, Clauses.of? o.text = some clauses := ⟨_, h.clauses⟩
  refine ⟨(restrict o.text clauses r.parameters f).parameters, ?_⟩
  simp only [ofRequest, hbase, hset, hclauses, if_false, Bool.false_eq_true,
    ← h.restrict_text hclauses r.parameters f]

/-- A statement that is assembled from clause bodies is normalized clause by clause, whatever the
bodies hold in quotes and parentheses. -/
theorem ofRequest_clausewise (d : Dialect) {r : Request} {o : Outline} (h : o.WellFormed)
    (hsource : r.source = o.text) (htrim : Text.trim o.text = o.text)
    (hend : o.text.getLast? ≠ some ';') (hset : (Profile.of o.text).hasSetOperation = false)
    (f : Fragment) :
    ∃ parameters, ofRequest d r (.of r.source) f = .ok ⟨o.restricted f.text, parameters⟩ := by
  have hbare : bareSource r.source = o.text := by
    rw [hsource]
    exact bareSource_eq_self htrim hend
  have hsource' : r.source = o.text ++ [] := by rw [hsource, List.append_nil]
  have hbase := base_of_outline h hsource' hbare
  exact ofRequest_of_outline h hbase (hsource ▸ hset) d f

/-- An outline with keywords in quotes and in parentheses, and an `OR` outside them. -/
def nested : Outline :=
  { selectList := "a, ' FROM '".toList
    source := "(SELECT * FROM t ORDER BY a) s".toList
    condition := some "a = ' OR ' or (b = 1)".toList
    tail := " ORDER BY a".toList }

theorem ofRequest_clausewise_nested :
    ∃ parameters, ofRequest .postgres { source := nested.text } (.of nested.text)
        ⟨"c = ?".toList, [.null]⟩ =
      .ok ⟨("SELECT a, ' FROM ' FROM (SELECT * FROM t ORDER BY a) s " ++
        "WHERE (a = ' OR ' or (b = 1)) AND (c = ?) ORDER BY a").toList, parameters⟩ := by
  have h : nested.WellFormed :=
    { selectList_closed := by decide
      source_closed := by decide
      condition_closed := by decide
      selectList_free := by decide
      source_free_where := by decide
      source_free := by decide
      condition_free := by decide
      tail_head := Or.inr ⟨Keyword.orderBy, by decide, by decide⟩
      tail_where := by decide }
  have hnormal := ofRequest_clausewise .postgres (r := { source := nested.text }) h rfl
    (by decide) (by decide) (by decide) ⟨"c = ?".toList, [.null]⟩
  have htext : nested.restricted "c = ?".toList =
      ("SELECT a, ' FROM ' FROM (SELECT * FROM t ORDER BY a) s " ++
        "WHERE (a = ' OR ' or (b = 1)) AND (c = ?) ORDER BY a").toList := by decide
  rwa [htext] at hnormal

end PagedQuery.Statement
