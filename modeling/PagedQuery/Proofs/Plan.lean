import PagedQuery.Plan

/-!
# Plans by their statements

A request has a plan when it has a statement and the statement has a page. The
plan holds the count and the page of that statement, both in the placeholder
style of the dialect, and the values of the statement. A request without a plan
has a filter that is refused, a source that stands for no statement, or a lock
that the dialect cannot page.
-/
namespace PagedQuery

/-- The error says what is wrong with the source. -/
def PlanError.OfSource : PlanError → Prop
  | missingTable _ | missingFrom _ => True
  | filter _ | unsupportedLocking .. => False

theorem Dialect.locksPages_of_rowNum {d : Dialect} (h : d.limitSyntax = .rowNum) :
    d.locksPages = false := by
  cases d <;> first | rfl | exact absurd h (by decide)

namespace Statement

variable {d : Dialect} {r : Request} {profile : Profile} {e : PlanError}

theorem requiredTable_error {source : Text} (h : requiredTable r source = .error e) :
    e.OfSource := by
  unfold requiredTable at h
  split at h
  · exact Except.error.inj h ▸ trivial
  · exact Except.error.inj h ▸ trivial
  · exact absurd h (by simp)

theorem map_requiredTable_error {source : Text} {assemble : Text → Text}
    (h : (requiredTable r source).map assemble = .error e) : e.OfSource := by
  cases hr : requiredTable r source with
  | error e' =>
    rw [hr] at h
    exact Except.error.inj h ▸ requiredTable_error hr
  | ok table =>
    rw [hr] at h
    exact absurd h (by simp [Except.map])

theorem base_error (h : base r profile = .error e) : e.OfSource := by
  unfold base at h
  simp only at h
  split at h
  · split at h
    · exact absurd h (by simp)
    · exact Except.error.inj h ▸ trivial
  · split at h
    · exact absurd h (by simp)
    · split at h
      · exact map_requiredTable_error h
      · split at h
        · exact absurd h (by simp)
        · exact map_requiredTable_error h

/-- A filter that has been rendered is never what is wrong with a request. -/
theorem ofRequest_error {f : Fragment} (h : ofRequest d r profile f = .error e) : e.OfSource := by
  unfold ofRequest at h
  split at h
  · rename_i e' hbase
    exact Except.error.inj h ▸ base_error hbase
  · split at h
    · exact absurd h (by simp)
    · split at h
      · exact Except.error.inj h ▸ trivial
      · exact absurd h (by simp)

theorem eq_of_page_error {keys : List Text} {w : Window} {t : Text}
    (h : page d keys w t = .error e) :
    d.locksPages = false ∧ e = .unsupportedLocking d (unlimited d t) := by
  unfold page at h
  simp only at h
  split at h
  · rename_i hlocks
    exact ⟨Bool.eq_false_iff.mpr hlocks.2, (Except.error.inj h).symm⟩
  · exact absurd h (by simp)

/-- A page is cut out between what stands in front of the locking clause and the clause, which a
dialect that does not lock pages does not find. -/
theorem eq_of_page {keys : List Text} {w : Window} {t pageText : Text} {lockAt : Nat}
    (hlock : lockAt =
      (Text.topLevel? Keyword.forUpdate 0 (unlimited d t)).getD (unlimited d t).length)
    (h : page d keys w t = .ok pageText) :
    pageText = limited d.limitSyntax w
        (Text.trimEnd ((unlimited d t).take lockAt) ++
          addedOrder d (Text.topLevel? Keyword.orderBy 0 (unlimited d t)).isSome keys)
        ((unlimited d t).drop lockAt) ∧
      (d.locksPages = false → (unlimited d t).drop lockAt = []) := by
  unfold page at h
  simp only [← hlock] at h
  split at h
  · exact absurd h (by simp)
  · rename_i hlocks
    refine ⟨(Except.ok.inj h).symm, fun hd => ?_⟩
    refine Classical.byContradiction fun hne => hlocks ⟨?_, by rw [hd]; decide⟩
    rwa [List.isEmpty_iff]

end Statement

namespace Planner

/-- A plan is made of the count and the page of the statement of the request. -/
theorem eq_of_plan {p : Planner} {r : Request} {plan : Plan} (h : p.plan r = .ok plan) :
    ∃ statement pageText, p.statement r = .ok statement ∧
      p.pageText r statement = .ok pageText ∧
      plan =
        { countStatement :=
            Placeholder.restyle p.dialect.placeholderStyle (p.countText r statement)
          pageStatement := Placeholder.restyle p.dialect.placeholderStyle pageText
          parameters := statement.parameters
          window := p.window r
          dialect := p.dialect } := by
  unfold Planner.plan at h
  cases hs : p.statement r with
  | error e =>
    rw [hs] at h
    exact absurd h (by simp)
  | ok s =>
    rw [hs] at h
    cases hg : p.pageText r s with
    | error e =>
      simp only [hg] at h
      exact absurd h (by simp)
    | ok pageText =>
      simp only [hg] at h
      exact ⟨s, pageText, rfl, hg, (Except.ok.inj h).symm⟩

/-- A plan fails for its filter exactly when the filter has no rendering, whatever the source. -/
theorem plan_eq_filter_iff {p : Planner} {r : Request} {e : FilterError} :
    p.plan r = .error (.filter e) ↔ r.filter.render = .error e := by
  unfold plan statement
  constructor
  · intro h
    cases hr : r.filter.render with
    | error e' =>
      rw [hr] at h
      exact congrArg Except.error (PlanError.filter.inj (Except.error.inj h))
    | ok f =>
      rw [hr] at h
      dsimp only at h
      split at h
      · rename_i e' hs
        obtain rfl := Except.error.inj h
        exact (Statement.ofRequest_error hs).elim
      · split at h
        · rename_i e' hpage
          obtain rfl := Except.error.inj h
          exact absurd (Statement.eq_of_page_error hpage).2 (by simp)
        · exact absurd h (by simp)
  · intro h
    rw [h]

/-- A filter matters to a plan by its rendering only. -/
theorem plan_congr_filter {p : Planner} {f g : Filter} (h : f.render = g.render) (r : Request) :
    p.plan { r with filter := f } = p.plan { r with filter := g } := by
  have hstatement : p.statement { r with filter := f } = p.statement { r with filter := g } := by
    unfold statement
    rw [h]
    rfl
  unfold plan
  rw [hstatement]
  rfl

theorem exists_plan (p : Planner) (r : Request) (countStatement pageStatement : Text)
    (h : (p.plan r).toOption.map (fun plan => (plan.countStatement, plan.pageStatement)) =
      some (countStatement, pageStatement)) :
    ∃ plan, p.plan r = .ok plan ∧ plan.countStatement = countStatement ∧
      plan.pageStatement = pageStatement := by
  cases hplan : p.plan r with
  | error e =>
    rw [hplan] at h
    exact absurd h (by simp [Except.toOption])
  | ok plan =>
    rw [hplan] at h
    have hboth := Option.some.inj h
    exact ⟨plan, rfl, congrArg Prod.fst hboth, congrArg Prod.snd hboth⟩

end Planner

end PagedQuery
