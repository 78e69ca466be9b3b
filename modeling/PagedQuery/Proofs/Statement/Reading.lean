import PagedQuery.Proofs.Statement.Query

/-!
# Readings of queries

A reading gives a query its rows: a source has rows under a condition, the select
list and the grouping make rows of them, an order permutes these and row limits
keep a slice. A count of rows has the number of rows that its source has under
its condition. In a lawful reading a derived table has the rows of its query, and
every reading of the base tables extends to a lawful one.
-/
namespace PagedQuery

open Text (IsBody)

/-- What the parts of a query do to rows, and which texts are names of derived tables. -/
structure Reading (Row : Type) where
  fetch : Text → Option Text → List Row
  select : Text → List Clause → List Row → List Row
  sort : Text → List Row → List Row
  slice : List Clause → List Row → List Row
  IsName : Text → Prop
  sort_perm : ∀ keys rows, (sort keys rows).Perm rows
  slice_infix : ∀ limit rows, slice limit rows <:+: rows
  name_body : ∀ name, IsName name → IsBody name

/-- The clauses regroup nothing. -/
def Clause.OnlyWindows (cs : List Clause) : Prop := ∀ c ∈ cs, c.keyword = Keyword.window

/-- The select list of a count. -/
def Keyword.rowCount : Text := "COUNT(*)".toList

/-- The query counts the rows of its source. -/
structure Query.IsCount (q : Query) : Prop where
  selectList_eq : q.selectList = Keyword.rowCount
  grouping_windows : Clause.OnlyWindows q.grouping
  order_none : q.order = none
  limit_nil : q.limit = []
  locking_none : q.locking = none

namespace Reading

variable {Row : Type} (S : Reading Row) {q : Query} {n : ℕ}

/-- The rows that a query makes of those of its source. A lock keeps them. -/
def arrange (q : Query) (rows : List Row) : List Row :=
  let selected := S.select q.selectList q.grouping rows
  let ordered := match q.order with
    | none => selected
    | some keys => S.sort keys selected
  if q.limit = [] then ordered else S.slice q.limit ordered

def rows (q : Query) : List Row := S.arrange q (S.fetch q.source q.condition)

/-- The select list makes one row of each row, as long as nothing regroups them. -/
def Rowwise (selectList : Text) : Prop :=
  ∀ cs rows, Clause.OnlyWindows cs → (S.select selectList cs rows).length = rows.length

/-- The text is a query with these rows. -/
def Yields (t : Text) (rows : List Row) : Prop :=
  ∃ q : Query, q.WellFormed ∧ q.text = t ∧ S.rows q = rows

/-- The text is a count of so many rows. -/
def Counts (t : Text) (n : ℕ) : Prop :=
  ∃ q : Query, q.WellFormed ∧ q.text = t ∧ q.IsCount ∧ (S.fetch q.source q.condition).length = n

/-- A derived table has the rows of its query. -/
def Lawful : Prop :=
  ∀ (d : Dialect) (q : Query) (name : Text), q.WellFormed → S.IsName name →
    S.fetch (d.derivedTable q.text name) none = S.rows q

/-- A text has the rows of one query only. -/
theorem yields_text_iff (h : q.WellFormed) {rows : List Row} :
    S.Yields q.text rows ↔ rows = S.rows q := by
  constructor
  · rintro ⟨q', h', htext, rfl⟩
    rw [Query.text_injective h' h htext]
  · rintro rfl
    exact ⟨q, h, rfl, rfl⟩

theorem counts_text_iff (h : q.WellFormed) (hcount : q.IsCount) :
    S.Counts q.text n ↔ n = (S.fetch q.source q.condition).length := by
  constructor
  · rintro ⟨q', h', htext, -, rfl⟩
    rw [Query.text_injective h' h htext]
  · rintro rfl
    exact ⟨q, h, rfl, hcount, rfl⟩

/-- An order that no row limit depends on can be left out of a count. -/
theorem length_rows_of_order (h : q.order = none ∨ q.limit = []) :
    (S.rows { q with order := none }).length = (S.rows q).length := by
  rcases h with h | h
  · have hq : { q with order := none } = q := by
      cases q
      simp only at h
      rw [h]
    rw [hq]
  · unfold rows arrange
    simp only [h, if_true]
    split
    · rfl
    · exact (S.sort_perm _ _).length_eq.symm

end Reading

theorem Dialect.derivedTable_injective {d₁ d₂ : Dialect} {t₁ t₂ name₁ name₂ : Text}
    (h₁ : Place.Closed t₁) (h₂ : Place.Closed t₂)
    (h : d₁.derivedTable t₁ name₁ = d₂.derivedTable t₂ name₂) : t₁ = t₂ := by
  have hsplit : ∀ (d : Dialect) (t name : Text), ∃ rest,
      d.derivedTable t name = Predicate.parenthesized t ++ rest := by
    intro d t name
    refine ⟨' ' :: d.derivedName name, ?_⟩
    simp [Dialect.derivedTable, Predicate.parenthesized]
  obtain ⟨rest₁, hrest₁⟩ := hsplit d₁ t₁ name₁
  obtain ⟨rest₂, hrest₂⟩ := hsplit d₂ t₂ name₂
  rw [hrest₁, hrest₂] at h
  have hle : ∀ {s₁ s₂ u₁ u₂ : Text}, Place.Closed s₁ → Place.Closed s₂ →
      Predicate.parenthesized s₁ ++ u₁ = Predicate.parenthesized s₂ ++ u₂ →
      (Predicate.parenthesized s₂).length ≤ (Predicate.parenthesized s₁).length := by
    intro s₁ s₂ u₁ u₂ hs₁ hs₂ hs
    -- the closing parenthesis of the first text would leave the second one too early
    by_contra hlt
    have hfirst : (Predicate.parenthesized s₂ ++ u₂).take (Predicate.parenthesized s₁).length =
        Predicate.parenthesized s₁ := by
      rw [← hs, List.take_left]
    have htake : (Predicate.parenthesized s₂).take (Predicate.parenthesized s₁).length =
        Predicate.parenthesized s₁ := by
      rwa [List.take_append_of_le_length (by omega)] at hfirst
    have hpos : 0 < (Predicate.parenthesized s₁).length := Nat.succ_pos _
    have hne := Place.after_take_parenthesized_ne_start hs₂ hpos (by omega)
    rw [htake] at hne
    exact hne hs₁.parenthesized.1
  have hlen := Nat.le_antisymm (hle h₂ h₁ h.symm) (hle h₁ h₂ h)
  have hparen := (List.append_inj h hlen).1
  exact (List.cons.inj (List.append_cancel_right hparen)).2

namespace Reading

variable {Row : Type} (S : Reading Row)

/-- The text is a derived table of the query. -/
def Derives (t : Text) (q : Query) : Prop :=
  q.WellFormed ∧ ∃ (d : Dialect) (name : Text), S.IsName name ∧ d.derivedTable q.text name = t

theorem Derives.source_length_lt {S : Reading Row} {t : Text} {q : Query} (h : S.Derives t q) :
    q.source.length < t.length := by
  obtain ⟨-, d, name, -, rfl⟩ := h
  simp [Dialect.derivedTable, Query.text, Query.clauses, Query.parts, Clause.join, Clause.text]
  omega

open Classical in
/-- The rows of sources, where a derived table has the rows of its query. -/
noncomputable def fetchDerived (t : Text) (condition : Option Text) : List Row :=
  if h : condition = none ∧ ∃ q, S.Derives t q then
    S.arrange h.2.choose (fetchDerived h.2.choose.source h.2.choose.condition)
  else S.fetch t condition
termination_by t.length
decreasing_by exact h.2.choose_spec.source_length_lt

/-- The reading with derived tables. -/
noncomputable def extend : Reading Row := { S with fetch := S.fetchDerived }

/-- Every reading of base tables extends to a lawful one. -/
theorem lawful_extend : S.extend.Lawful := by
  intro d q name hq hname
  have hderives : S.Derives (d.derivedTable q.text name) q := ⟨hq, d, name, hname, rfl⟩
  have hexists : ∃ q', S.Derives (d.derivedTable q.text name) q' := ⟨q, hderives⟩
  have hchoose : hexists.choose = q := by
    obtain ⟨hq', d', name', -, htext⟩ := hexists.choose_spec
    exact Query.text_injective hq' hq (Dialect.derivedTable_injective hq'.closed hq.closed htext)
  change S.fetchDerived (d.derivedTable q.text name) none =
    S.arrange q (S.fetchDerived q.source q.condition)
  rw [fetchDerived, dif_pos ⟨rfl, hexists⟩, hchoose]

end Reading

end PagedQuery
