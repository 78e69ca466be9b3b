import PagedQuery.Proofs.Plan
import PagedQuery.Proofs.Statement.Paging

/-!
# Locking clauses that cannot be paged

A dialect that does not lock pages refuses every statement with a locking clause at
the top level. The locking clause of a source stays there when the source is completed
and when a filter is conjoined to its condition. It does not when the source becomes a
derived table: a set operation does when it is filtered, and every statement that limits
its rows does when it is paged. Such a statement is planned with the clause inside.
-/
namespace PagedQuery

open Text (Occurs LeadsOff)

namespace Text

theorem Occurs.where_le {s u : Text} {j : Nat}
    (h : Occurs Keyword.whereClause (s ++ ' ' :: u) j) (hj : j < s.length) :
    j + Keyword.whereClause.length ≤ s.length + 1 := by
  by_contra hlt
  have hlen : Keyword.whereClause.length = 7 := rfl
  have hinner : ∀ n < 7, 0 < n → Keyword.whereClause[n]? = some ' ' → n = 6 := by decide
  have hget := h.getElem?_fold (n := s.length - j) (by omega)
  have hspace : (fold (s ++ ' ' :: u))[j + (s.length - j)]? = some ' ' := by
    rw [fold_append, List.getElem?_append_right (by rw [fold_length]; omega), fold_length,
      show j + (s.length - j) - s.length = 0 by omega]
    rfl
  have := hinner (s.length - j) (by omega) (by omega) (hget.symm.trans hspace)
  omega

end Text

namespace Clauses

variable {t : Text} {clauses : Clauses}

theorem tailAt_le_of_occurs (h : of? t = some clauses) {k : Text} (hk : k ∈ Keyword.trailing)
    {i : Nat} (ho : Occurs k t i) (hi : clauses.bodyAt ≤ i) : clauses.tailAt ≤ i := by
  obtain ⟨-, -, -, htail⟩ := eq_of_of? h
  cases hf : Text.firstTopLevel? Keyword.trailing clauses.bodyAt t with
  | none => exact absurd ho (Text.firstTopLevel?_eq_none_iff.mp hf k hk i hi)
  | some j =>
    rw [hf, Option.getD_some] at htail
    by_contra hlt
    exact (Text.firstTopLevel?_eq_some_iff.mp hf).2.2 k hk i hi (by omega) ho

theorem leadsOff_tail (h : of? t = some clauses) (ht : Place.after .start t = .start) :
    LeadsOff (t.drop clauses.tailAt) :=
  Text.leadsOff_of_clauses (fun _ => Keyword.mem_cuts_of_mem_trailing) (tail_spec h ht).2

end Clauses

namespace Statement

variable {d : Dialect} {r : Request} {t source : Text} {clauses : Clauses} {f : Fragment}

/-- The source has a locking clause at the top level, and no `WHERE` reaches into the clause or
stands behind it. -/
def LocksLast (source : Text) : Prop :=
  ∃ i, Occurs Keyword.forUpdate source i ∧
    ∀ j, Occurs Keyword.whereClause (' ' :: source) j → j + Keyword.whereClause.length ≤ i + 1

/-- A locking clause is the last one when the search from its beginning on finds no `WHERE`. -/
theorem locksLast_of_occurs {i : Nat} (ho : Occurs Keyword.forUpdate source i)
    (hwhere : Text.topLevel? Keyword.whereClause (i + 2 - Keyword.whereClause.length)
      (' ' :: source) = none) : LocksLast source := by
  refine ⟨i, ho, fun j hj => ?_⟩
  by_contra hlt
  exact Text.topLevel?_eq_none_iff.mp hwhere j (by omega) hj

/-- The same of a whole statement, which does not begin with its condition. -/
def LocksBehind (t : Text) : Prop :=
  ∃ i, Occurs Keyword.forUpdate t i ∧
    ∀ j, Occurs Keyword.whereClause t j → j + Keyword.whereClause.length ≤ i

theorem LocksLast.behind (h : LocksLast source) : LocksBehind source := by
  obtain ⟨i, ho, hwhere⟩ := h
  refine ⟨i, ho, fun j hj => ?_⟩
  have hspaced : Occurs Keyword.whereClause ([' '] ++ source) ([' '].length + j) :=
    (Text.occurs_append_right (Place.after_of_isPlain (by decide) _)).mpr hj
  have := hwhere _ hspaced
  rw [List.length_singleton] at this
  omega

theorem LocksLast.append (h : LocksLast source) {s : Text} (hs : Place.after .start s = .start) :
    LocksBehind (s ++ ' ' :: source) := by
  obtain ⟨i, ho, hwhere⟩ := h
  have hfront : Place.after .start (s ++ [' ']) = .start := by
    rw [Place.after_append, hs]
    rfl
  refine ⟨s.length + 1 + i, ?_, fun j hj => ?_⟩
  · have hall := (Text.occurs_append_right hfront).mpr ho
    rwa [List.length_append, List.append_assoc] at hall
  · rcases Nat.lt_or_ge j s.length with hlt | hge
    · have := hj.where_le hlt
      omega
    · obtain ⟨n, rfl⟩ := Nat.exists_eq_add_of_le hge
      have := hwhere n ((Text.occurs_append_right hs).mp hj)
      omega

theorem locksBehind_base {profile : Profile} (htable : ∀ table ∈ r.table, Place.Closed table)
    (hlock : LocksLast (bareSource r.source)) (h : base r profile = .ok t) : LocksBehind t := by
  rcases base_cases h with rfl | ⟨-, rfl | rfl⟩ | ⟨table, hmem, -, ⟨hnil, -⟩ | ⟨-, rfl⟩⟩
  · exact hlock.behind
  · exact hlock.append (s := "SELECT *".toList) (by decide)
  · exact hlock.append (s := "SELECT * FROM".toList) (by decide)
  · obtain ⟨i, ho, -⟩ := hlock
    rw [hnil] at ho
    exact absurd ho.1 (Nat.not_lt_zero i)
  · have hfront := (selectAll_closed (htable table hmem).trim).append
      (Place.closed_of_isPlain (by decide : " WHERE".toList.all Text.isPlain = true))
    have hsplit : selectAll (Text.trim table) ++ Keyword.whereClause ++ bareSource r.source =
        selectAll (Text.trim table) ++ " WHERE".toList ++ ' ' :: bareSource r.source := by
      rw [List.append_assoc, List.append_assoc]
      rfl
    rw [hsplit]
    exact hlock.append hfront.1

theorem occurs_neutralWhere (hclauses : Clauses.of? t = some clauses)
    (ht : Place.after .start t = .start) {i : Nat} (ho : Occurs Keyword.forUpdate t i)
    (hi : i < clauses.tailAt) (rest : Text) :
    Occurs Keyword.forUpdate
      (Text.trimEnd (t.take clauses.tailAt) ++ neutralWhere ++ rest) i := by
  have hle := Clauses.tailAt_le hclauses
  rw [← List.take_append_drop clauses.tailAt t] at ho
  have hfront := occurs_trimEnd (by decide) (Clauses.leadsOff_tail hclauses ht) ho
    (by rw [List.length_take_of_le hle]; exact hi)
  have hsplit : Text.trimEnd (t.take clauses.tailAt) ++ neutralWhere ++ rest =
      Text.trimEnd (t.take clauses.tailAt) ++ [' '] ++ ("WHERE 1=1".toList ++ rest) := by
    rw [List.append_assoc, List.append_assoc]
    rfl
  rw [hsplit]
  exact hfront.append _

/-- A filter in the clauses of a single statement leaves its locking clause at the top level. -/
theorem exists_occurs_restrict (hclauses : Clauses.of? t = some clauses) (ht : Place.Closed t)
    (hf : Place.Closed f.text) (hlock : LocksBehind t) (parameters : List Value) :
    ∃ i, Occurs Keyword.forUpdate (restrict t clauses parameters f).text i := by
  obtain ⟨i, ho, hwhere⟩ := hlock
  obtain ⟨hfront, -⟩ := tail_closed hclauses ht
  rcases Nat.lt_or_ge i clauses.tailAt with hlt | hge
  · have hnone : clauses.whereAt = none := by
      cases hw : clauses.whereAt with
      | none => rfl
      | some w =>
        obtain ⟨hoccurs, hbody⟩ := Clauses.occurs_whereAt hclauses hw
        have := Clauses.tailAt_le_of_occurs hclauses (by decide) ho
          (by rw [hbody]; exact hwhere w hoccurs)
        omega
    have hneutral := occurs_neutralWhere hclauses ht.1 ho hlt
    unfold restrict
    split
    · unfold withCondition
      split
      · exact ⟨i, hneutral _⟩
      · exact ⟨i, ho⟩
    · refine ⟨i, ?_⟩
      simp only [head, hnone, List.append_assoc]
      have := hneutral (" AND ".toList ++ (Predicate.parenthesized f.text ++
        t.drop clauses.tailAt))
      rwa [List.append_assoc] at this
  · have htail : Occurs Keyword.forUpdate (t.drop clauses.tailAt) (i - clauses.tailAt) := by
      have hle := Clauses.tailAt_le hclauses
      have hlen : (t.take clauses.tailAt).length = clauses.tailAt := List.length_take_of_le hle
      rw [← List.take_append_drop clauses.tailAt t,
        show i = (t.take clauses.tailAt).length + (i - clauses.tailAt) by omega] at ho
      exact (Text.occurs_append_right hfront.1).mp ho
    unfold restrict
    split
    · unfold withCondition
      split
      · have hclosed := hfront.trimEnd.append (by decide : Place.Closed neutralWhere)
        exact ⟨_, (Text.occurs_append_right hclosed.1).mpr htail⟩
      · exact ⟨i, ho⟩
    · have hclosed := ((head_closed hclauses ht).append
        (by decide : Place.Closed " AND ".toList)).append hf.parenthesized
      exact ⟨_, (Text.occurs_append_right hclosed.1).mpr htail⟩

/-- In a filtered set operation only the filter shows a locking clause. -/
theorem exists_occurs_setOperation_iff (d : Dialect) (ht : Place.Closed t) (fragment : Text) :
    (∃ i, Occurs Keyword.forUpdate
      (selectAll (d.derivedTable t sourceAlias) ++ Keyword.whereClause ++ fragment) i) ↔
      ∃ i, Occurs Keyword.forUpdate (' ' :: fragment) i := by
  have htable := selectAll_closed
    (derivedTable_closed d ht (by decide : sourceAlias.all Text.isPlain = true))
  have hwhere : Place.Closed " WHERE".toList := Place.closed_of_isPlain (by decide)
  have hsplit : selectAll (d.derivedTable t sourceAlias) ++ Keyword.whereClause ++ fragment =
      selectAll (d.derivedTable t sourceAlias) ++ (" WHERE".toList ++ ' ' :: fragment) := by
    rw [List.append_assoc]
    rfl
  rw [hsplit]
  constructor
  · rintro ⟨i, ho⟩
    rcases Nat.lt_or_ge i (selectAll (d.derivedTable t sourceAlias)).length with hlt | hge
    · have hseam := ho.of_seam (by decide) (Text.leadsOff_keyword (k := Keyword.whereClause)
        (by decide) fragment) hlt
      exact absurd hseam (not_occurs_derivedTable ht (by decide) (by decide) (by decide))
    obtain ⟨n, rfl⟩ := Nat.exists_eq_add_of_le hge
    have hclause := (Text.occurs_append_right htable.1).mp ho
    rcases Nat.lt_or_ge n " WHERE".toList.length with hlt | hge
    · have hletter := hclause.getElem?_fold (n := 1) (by decide)
      have hnone : ∀ m < 7, Keyword.whereClause[m]? ≠ some 'F' := by decide
      have hfold : Text.fold (" WHERE".toList ++ ' ' :: fragment) =
          Keyword.whereClause ++ Text.fold fragment :=
        Text.fold_append Keyword.whereClause fragment
      have hlen : " WHERE".toList.length = 6 := rfl
      rw [hfold, List.getElem?_append_left (by change n + 1 < 7; omega)] at hletter
      exact absurd hletter (hnone (n + 1) (by omega))
    · obtain ⟨m, rfl⟩ := Nat.exists_eq_add_of_le hge
      exact ⟨m, (Text.occurs_append_right hwhere.1).mp hclause⟩
  · rintro ⟨i, ho⟩
    exact ⟨_, (Text.occurs_append_right htable.1).mpr ((Text.occurs_append_right hwhere.1).mpr ho)⟩

theorem page_locking {keys : List Text} {w : Window} (hd : d.locksPages = false)
    (hlimit : Text.hasTopLevel Keyword.rowLimits 0 t = false) {i : Nat}
    (ho : Occurs Keyword.forUpdate t i) :
    page d keys w t = .error (.unsupportedLocking d t) := by
  unfold page unlimited
  rw [hlimit]
  cases hf : Text.topLevel? Keyword.forUpdate 0 t with
  | none => exact absurd ho (Text.topLevel?_eq_none_iff.mp hf i (Nat.zero_le i))
  | some j =>
    have hne : ¬(t.drop j).isEmpty = true := by
      have := Text.topLevel?_lt hf
      rw [List.isEmpty_iff, List.drop_eq_nil_iff]
      omega
    simp [hf, hne, hd]

/-- Without a locking clause at the top level, or with the whole text in a derived table, nothing is
refused. -/
theorem exists_page_of_hidden (d : Dialect) (keys : List Text) (w : Window) (ht : Place.Closed t)
    (h : Text.hasTopLevel Keyword.rowLimits 0 t = true ∨ ∀ i, ¬Occurs Keyword.forUpdate t i) :
    ∃ pageText, page d keys w t = .ok pageText := by
  have hnone : Text.topLevel? Keyword.forUpdate 0 (unlimited d t) = none := by
    unfold unlimited
    split
    · exact not_occurs_unlimited ht (by decide) (by decide)
    · rename_i hlimit
      exact Text.topLevel?_eq_none_iff.mpr fun i _ => h.resolve_left hlimit i
  unfold page
  simp only [hnone, Option.getD_none, List.drop_length, List.isEmpty_nil, not_true, false_and,
    if_false, Except.ok.injEq, exists_eq']

end Statement

namespace Planner

open Statement (LocksLast)

/-- The source ends with a locking clause, and the texts of the caller are closed. -/
structure Locking (r : Request) (f : Fragment) : Prop where
  filter_eq : r.filter.render = .ok f
  filter_closed : Place.Closed f.text
  table_closed : ∀ table ∈ r.table, Place.Closed table
  source_closed : Place.Closed (Statement.bareSource r.source)
  source_locks : LocksLast (Statement.bareSource r.source)

/-- The locking clause of the source is put in parentheses: the statement limits its rows, or it is
a set operation with a filter that does not lock on its own. -/
def HidesLock (r : Request) (f : Fragment) (s : Statement) : Prop :=
  Text.hasTopLevel Keyword.rowLimits 0 s.text = true ∨
    (Profile.of r.source).hasSetOperation = true ∧ f.text ≠ [] ∧
      ∀ i, ¬Occurs Keyword.forUpdate (' ' :: f.text) i

variable {p : Planner} {r : Request} {f : Fragment} {s : Statement}

/-- The statement of a locking source locks at the top level, if it is no filtered set operation. -/
theorem Locking.exists_occurs_iff (h : Locking r f) (hs : p.statement r = .ok s) :
    (∃ i, Occurs Keyword.forUpdate s.text i) ↔
      ¬((Profile.of r.source).hasSetOperation = true ∧ f.text ≠ [] ∧
        ∀ i, ¬Occurs Keyword.forUpdate (' ' :: f.text) i) := by
  have hrequest : Statement.ofRequest p.dialect r (.of r.source) f = .ok s := by
    rw [← hs, statement, h.filter_eq]
  obtain ⟨t, hbase, hcases⟩ := Statement.ofRequest_cases hrequest
  have ht := Statement.base_closed h.source_closed h.table_closed hbase
  have hlock := Statement.locksBehind_base h.table_closed h.source_locks hbase
  rcases hcases with ⟨hset, rfl⟩ | ⟨hset, clauses, hclauses, rfl⟩
  · unfold Statement.restrictSetOperation
    split
    · rename_i hempty
      obtain ⟨i, ho, -⟩ := hlock
      exact iff_of_true ⟨i, ho⟩ fun hhidden => hhidden.2.1 (List.isEmpty_iff.mp hempty)
    · rename_i hne
      rw [Statement.exists_occurs_setOperation_iff p.dialect ht]
      simp only [hset, true_and, ne_eq, List.isEmpty_iff.not.mp hne, not_false_eq_true]
      push Not
      rfl
  · rw [hset]
    exact iff_of_true (Statement.exists_occurs_restrict hclauses ht h.filter_closed hlock _)
      fun hhidden => absurd hhidden.1 (by simp)

/-- A dialect that does not lock pages refuses a locking source unless the clause is hidden. -/
theorem unsupportedLocking_iff (h : Locking r f) (hd : p.dialect.locksPages = false)
    (hs : p.statement r = .ok s) :
    (p.plan r = .error (.unsupportedLocking p.dialect s.text) ↔ ¬HidesLock r f s) ∧
      ((∃ plan, p.plan r = .ok plan) ↔ HidesLock r f s) := by
  have hclosed : Place.Closed s.text :=
    Statement.ofRequest_closed h.source_closed h.table_closed h.filter_closed
      (by rw [← hs, statement, h.filter_eq])
  have hrefused : ¬HidesLock r f s →
      p.plan r = .error (.unsupportedLocking p.dialect s.text) := by
    intro hshown
    obtain ⟨hlimit, hset⟩ := not_or.mp hshown
    obtain ⟨i, ho⟩ := (h.exists_occurs_iff hs).mpr hset
    simp only [plan, hs, pageText, Statement.page_locking hd (Bool.eq_false_iff.mpr hlimit) ho]
  have hplanned : HidesLock r f s → ∃ plan, p.plan r = .ok plan := by
    intro hhidden
    have hpage : ∃ pageText, p.pageText r s = .ok pageText := by
      refine Statement.exists_page_of_hidden _ _ _ hclosed (hhidden.imp_right fun hset => ?_)
      exact not_exists.mp (mt (h.exists_occurs_iff hs).mp (not_not.mpr hset))
    obtain ⟨pageText, hpage⟩ := hpage
    simp only [plan, hs, hpage, Except.ok.injEq, exists_eq']
  constructor
  · refine ⟨fun herror hhidden => ?_, hrefused⟩
    obtain ⟨plan, hplan⟩ := hplanned hhidden
    exact absurd (herror.symm.trans hplan) (by simp)
  · refine ⟨?_, hplanned⟩
    rintro ⟨plan, hplan⟩
    by_contra hshown
    exact absurd (hplan.symm.trans (hrefused hshown)) (by simp)

/-- A locking source whose condition has an `OR`, with a filter. -/
def readyJobs : Request :=
  { source := "SELECT * FROM jobs WHERE state = 1 OR late = 1 FOR UPDATE;".toList
    filter := .raw "owner = ?".toList [.null] }

theorem unsupportedLocking_iff_readyJobs :
    Locking readyJobs ⟨"owner = ?".toList, [.null]⟩ ∧
      ({ dialect := .oracle } : Planner).plan readyJobs = .error (.unsupportedLocking .oracle
        "SELECT * FROM jobs WHERE (state = 1 OR late = 1) AND (owner = ?) FOR UPDATE".toList) := by
  have h : Locking readyJobs ⟨"owner = ?".toList, [.null]⟩ :=
    { filter_eq := by rfl
      filter_closed := by decide
      table_closed := nofun
      source_closed := by decide +kernel
      source_locks :=
        Statement.locksLast_of_occurs (i := 46) (by decide +kernel) (by decide +kernel) }
  obtain ⟨s, hs⟩ : ∃ s, ({ dialect := .oracle } : Planner).statement readyJobs = .ok s := ⟨_, rfl⟩
  have htext : (({ dialect := .oracle } : Planner).statement readyJobs).map Statement.text =
      .ok "SELECT * FROM jobs WHERE (state = 1 OR late = 1) AND (owner = ?) FOR UPDATE".toList := by
    decide +kernel
  rw [hs] at htext
  have hshown : ¬HidesLock readyJobs ⟨"owner = ?".toList, [.null]⟩ s := by
    unfold HidesLock
    rw [Except.ok.inj htext]
    refine not_or.mpr ⟨by decide +kernel, fun hset => absurd hset.1 (by decide +kernel)⟩
  have hrefused := (unsupportedLocking_iff h rfl hs).1.mpr hshown
  rw [Except.ok.inj htext] at hrefused
  exact ⟨h, hrefused⟩

/-- A locking source that limits its rows. -/
def limitedJobs : Request :=
  { source := "SELECT * FROM jobs WHERE id > 3 FETCH FIRST 5 ROWS ONLY FOR UPDATE".toList }

def lockedUnion : Request :=
  { source := "SELECT a FROM t UNION SELECT a FROM u FOR UPDATE".toList
    filter := .raw "a > 1".toList [] }

/-- A limited source and a filtered set operation are planned, with the locking clause inside a
derived table. -/
theorem locking_planned :
    (Locking limitedJobs ⟨[], []⟩ ∧
      (({ dialect := .oracle } : Planner).plan limitedJobs).map Plan.pageStatement =
        .ok ("SELECT * FROM (SELECT * FROM jobs WHERE id > 3 FETCH FIRST 5 ROWS ONLY ".toList ++
          "FOR UPDATE) pagehaus_page OFFSET 0 ROWS FETCH NEXT 10 ROWS ONLY".toList)) ∧
    Locking lockedUnion ⟨"a > 1".toList, []⟩ ∧
      (({ dialect := .oracleLegacy } : Planner).plan lockedUnion).map Plan.pageStatement =
        .ok ("SELECT * FROM (SELECT row_.*, ROWNUM rownum_ FROM (SELECT * FROM ".toList ++
          "(SELECT a FROM t UNION SELECT a FROM u FOR UPDATE) pagehaus_source ".toList ++
          "WHERE a > 1) row_ WHERE ROWNUM <= 10) WHERE rownum_ > 0".toList) := by
  have hlimited : Locking limitedJobs ⟨[], []⟩ :=
    { filter_eq := by rfl
      filter_closed := by decide
      table_closed := nofun
      source_closed := by decide +kernel
      source_locks :=
        Statement.locksLast_of_occurs (i := 55) (by decide +kernel) (by decide +kernel) }
  have hunion : Locking lockedUnion ⟨"a > 1".toList, []⟩ :=
    { filter_eq := by rfl
      filter_closed := by decide
      table_closed := nofun
      source_closed := by decide +kernel
      source_locks :=
        Statement.locksLast_of_occurs (i := 37) (by decide +kernel) (by decide +kernel) }
  exact ⟨⟨hlimited, by decide +kernel⟩, hunion, by decide +kernel⟩

end Planner

end PagedQuery
