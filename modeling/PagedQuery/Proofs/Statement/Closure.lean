import PagedQuery.Proofs.Statement.Normalization

/-!
# Closed statements

A statement is made of the source, the table and the filter in a few ways, which
are told apart here. It is closed when they are: it is cut at the top level only,
and what is put in is closed or stands in parentheses.
-/
namespace PagedQuery

namespace Clauses

variable {t : Text} {clauses : Clauses}

/-- The tail begins at the top level, at the end or with a clause that may follow a condition. -/
theorem tail_spec (h : of? t = some clauses) (ht : Place.after .start t = .start) :
    Place.after .start (t.take clauses.tailAt) = .start ∧
      (t.drop clauses.tailAt = [] ∨
        ∃ k ∈ Keyword.trailing, k <+: Text.fold (t.drop clauses.tailAt)) := by
  obtain ⟨-, -, -, htail⟩ := eq_of_of? h
  cases hf : Text.firstTopLevel? Keyword.trailing clauses.bodyAt t with
  | none =>
    rw [hf, Option.getD_none] at htail
    rw [htail, List.take_length, List.drop_length]
    exact ⟨ht, Or.inl rfl⟩
  | some j =>
    rw [hf, Option.getD_some] at htail
    obtain ⟨k, hk, ho⟩ := (Text.firstTopLevel?_eq_some_iff.mp hf).1
    rw [htail]
    refine ⟨ho.2.1, Or.inr ⟨k, hk, ?_⟩⟩
    rw [← Text.fold_drop]
    exact ho.2.2

/-- The condition of a closed text is closed. -/
theorem body_closed (h : of? t = some clauses) (ht : Place.Closed t) {w : Nat}
    (hw : clauses.whereAt = some w) :
    Place.Closed ((t.take clauses.tailAt).drop clauses.bodyAt) := by
  obtain ⟨ho, hbody⟩ := occurs_whereAt h hw
  have hle := bodyAt_le_tailAt h hw
  have hstart := (tail_spec h ht.1).1
  have hbodyAt : Place.after .start ((t.take clauses.tailAt).take clauses.bodyAt) = .start := by
    rw [List.take_take, Nat.min_eq_left hle, hbody]
    exact ho.after_take (by decide) (Nat.le_refl _)
  rw [← List.take_append_drop clauses.tailAt t, Place.closed_append_iff hstart] at ht
  have hfront := ht.1
  rw [← List.take_append_drop clauses.bodyAt (t.take clauses.tailAt),
    Place.closed_append_iff hbodyAt] at hfront
  exact hfront.2

end Clauses

namespace Statement

variable {d : Dialect} {r : Request} {t : Text} {clauses : Clauses} {f : Fragment}

theorem bareSource_closed {source : Text} (h : Place.Closed source) :
    Place.Closed (bareSource source) :=
  (h.trim.trimEndBy fun c hc => by
    rw [of_decide_eq_true hc]
    decide).trimEnd

theorem derivedTable_closed (d : Dialect) (ht : Place.Closed t) {tableAlias : Text}
    (halias : tableAlias.all Text.isPlain = true) :
    Place.Closed (d.derivedTable t tableAlias) := by
  have heq : d.derivedTable t tableAlias =
      Predicate.parenthesized t ++ ([' '] ++ d.derivedName tableAlias) := by
    simp [Dialect.derivedTable, Predicate.parenthesized]
  have hname : (d.derivedName tableAlias).all Text.isPlain = true := by
    unfold Dialect.derivedName
    split
    · rw [List.all_append, halias]
      decide
    · exact halias
  rw [heq]
  exact ht.parenthesized.append
    ((Place.closed_of_isPlain (by decide)).append (Place.closed_of_isPlain hname))

theorem selectAll_closed (ht : Place.Closed t) : Place.Closed (selectAll t) := by
  unfold selectAll
  exact (Place.closed_of_isPlain (by decide)).append ht

theorem requiredTable_ne_nil {source table : Text} (h : requiredTable r source = .ok table) :
    table ≠ [] := by
  rintro rfl
  unfold requiredTable at h
  split at h
  · exact absurd h (by simp)
  · exact absurd h (by simp)
  · rename_i hsome heq
    exact hsome (Except.ok.inj h)

theorem exists_table {source : Text} {assemble : Text → Text}
    (h : (requiredTable r source).map assemble = .ok t) :
    ∃ table ∈ r.table, Text.trim table ≠ [] ∧ t = assemble (Text.trim table) := by
  cases hr : requiredTable r source with
  | error e =>
    rw [hr] at h
    exact absurd h (by simp [Except.map])
  | ok trimmed =>
    rw [hr] at h
    have hne := requiredTable_ne_nil hr
    obtain ⟨table, htable, rfl⟩ := requiredTable_eq hr
    exact ⟨table, htable, hne, (Except.ok.inj h).symm⟩

theorem base_cases {profile : Profile} (h : base r profile = .ok t) :
    t = bareSource r.source ∨
    (bareSource r.source ≠ [] ∧ (t = "SELECT * ".toList ++ bareSource r.source ∨
      t = selectAll (bareSource r.source))) ∨
    ∃ table ∈ r.table, Text.trim table ≠ [] ∧
      (bareSource r.source = [] ∧ t = selectAll (Text.trim table) ∨ bareSource r.source ≠ [] ∧
        t = selectAll (Text.trim table) ++ Keyword.whereClause ++ bareSource r.source) := by
  unfold base at h
  simp only at h
  split at h
  · split at h
    · exact Or.inl (Except.ok.inj h).symm
    · exact absurd h (by simp)
  split at h
  · rename_i hfrom
    refine Or.inr (Or.inl ⟨fun hnil => ?_, Or.inl (Except.ok.inj h).symm⟩)
    rw [hnil] at hfrom
    exact absurd hfrom (by decide)
  split at h
  · rename_i hempty
    obtain ⟨table, htable, hne, ht⟩ := exists_table h
    exact Or.inr (Or.inr ⟨table, htable, hne, Or.inl ⟨List.isEmpty_iff.mp hempty, ht⟩⟩)
  · rename_i hempty
    have hsource : bareSource r.source ≠ [] := fun hnil => hempty (by rw [hnil]; rfl)
    split at h
    · exact Or.inr (Or.inl ⟨hsource, Or.inr (Except.ok.inj h).symm⟩)
    · obtain ⟨table, htable, hne, ht⟩ := exists_table h
      exact Or.inr (Or.inr ⟨table, htable, hne, Or.inr ⟨hsource, ht⟩⟩)

/-- A set operation is restricted as a derived table, a single statement in its own clauses. -/
theorem ofRequest_cases {s : Statement} {profile : Profile} (h : ofRequest d r profile f = .ok s) :
    ∃ t, base r profile = .ok t ∧
      (profile.hasSetOperation = true ∧ s = restrictSetOperation d t r.parameters f ∨
        profile.hasSetOperation = false ∧ ∃ clauses, Clauses.of? t = some clauses ∧
          s = restrict t clauses r.parameters f) := by
  unfold ofRequest at h
  cases hbase : base r profile with
  | error e =>
    rw [hbase] at h
    exact absurd h (by simp)
  | ok t =>
    rw [hbase] at h
    simp only at h
    refine ⟨t, rfl, ?_⟩
    split at h
    · rename_i hset
      exact Or.inl ⟨hset, (Except.ok.inj h).symm⟩
    · rename_i hset
      cases hclauses : Clauses.of? t with
      | none =>
        rw [hclauses] at h
        exact absurd h (by simp)
      | some clauses =>
        rw [hclauses] at h
        exact Or.inr ⟨Bool.eq_false_iff.mpr hset, clauses, rfl, (Except.ok.inj h).symm⟩

/-- The statement that a closed source stands for is closed. -/
theorem base_closed {profile : Profile} (hbare : Place.Closed (bareSource r.source))
    (htable : ∀ table ∈ r.table, Place.Closed table) (h : base r profile = .ok t) :
    Place.Closed t := by
  rcases base_cases h with rfl | ⟨-, rfl | rfl⟩ | ⟨table, hmem, -, ⟨-, rfl⟩ | ⟨-, rfl⟩⟩
  · exact hbare
  · exact (Place.closed_of_isPlain (by decide)).append hbare
  · exact selectAll_closed hbare
  · exact selectAll_closed (htable table hmem).trim
  · exact ((selectAll_closed (htable table hmem).trim).append
      (Keyword.closed_of_mem_heads (by decide))).append hbare

theorem tail_closed (hclauses : Clauses.of? t = some clauses) (ht : Place.Closed t) :
    Place.Closed (t.take clauses.tailAt) ∧ Place.Closed (t.drop clauses.tailAt) := by
  have hstart := (Clauses.tail_spec hclauses ht.1).1
  rwa [← List.take_append_drop clauses.tailAt t, Place.closed_append_iff hstart] at ht

theorem head_closed (hclauses : Clauses.of? t = some clauses) (ht : Place.Closed t) :
    Place.Closed (head t clauses) := by
  have hfront := (tail_closed hclauses ht).1
  unfold head
  cases hw : clauses.whereAt with
  | none => exact hfront.trimEnd.append (by decide)
  | some whereAt =>
    simp only
    split
    · have hbefore : Place.Closed (t.take whereAt) := by
        have hstart := (Clauses.occurs_whereAt hclauses hw).1.2.1
        rw [← List.take_append_drop whereAt t, Place.closed_append_iff hstart] at ht
        exact ht.1
      exact (hbefore.append (Keyword.closed_of_mem_heads (by decide))).append
        (Clauses.body_closed hclauses ht hw).trim.parenthesized
    · exact hfront.trimEnd

/-- The statement of a request is closed when all that it is made of is. -/
theorem ofRequest_closed {s : Statement} {profile : Profile}
    (hbare : Place.Closed (bareSource r.source))
    (htable : ∀ table ∈ r.table, Place.Closed table) (hf : Place.Closed f.text)
    (hs : ofRequest d r profile f = .ok s) : Place.Closed s.text := by
  obtain ⟨t, hbase, hcases⟩ := ofRequest_cases hs
  have ht := base_closed hbare htable hbase
  rcases hcases with ⟨-, rfl⟩ | ⟨-, clauses, hclauses, rfl⟩
  · unfold restrictSetOperation
    split
    · exact ht
    · exact ((selectAll_closed (derivedTable_closed d ht (by decide))).append
        (Keyword.closed_of_mem_heads (by decide))).append hf
  · obtain ⟨hfront, htail⟩ := tail_closed hclauses ht
    unfold restrict
    split
    · unfold withCondition
      split
      · exact (hfront.trimEnd.append (by decide)).append htail
      · exact ht
    · exact (((head_closed hclauses ht).append (by decide)).append hf.parenthesized).append htail

end Statement

end PagedQuery
