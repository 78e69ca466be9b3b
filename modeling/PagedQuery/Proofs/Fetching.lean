import Mathlib.Tactic.Common
import PagedQuery.Executor

/-!
# Calls of an executor

Every request is answered by a block of calls: none when it has no plan, the count
alone when it fails or finds no rows, and else the count and the query behind it. Each
call has the statement of its kind and the values of the plan. The blocks of a list of
requests follow one another, whatever the executor answers and whatever its answers
depend on, so nothing is called twice or out of turn.
-/
namespace PagedQuery

theorem Page.empty_eq {ρ : Type} (w : Window) : (Page.empty w : Page ρ) =
    { content := [], page := w.page, size := w.pageSize, totalElements := 0, totalPages := 0 } := by
  have hpages : Page.pagesFor 0 w.pageSize = 0 := by
    unfold pagesFor
    split <;> simp
  rw [Page.empty, Page.of, hpages]

namespace Executor

variable {σ ρ : Type} {e : Executor σ ρ} {statement : Text} {parameters : List Value} {s s' : σ}

theorem recording_count {counted : Except ExecutorError UInt64}
    (h : e.count statement parameters s = (counted, s')) (log : List Call) :
    e.recording.count statement parameters (s, log) =
      (counted, s', log ++ [.count statement parameters]) := by
  simp only [recording, h]

theorem recording_query {queried : Except ExecutorError (List ρ)}
    (h : e.query statement parameters s = (queried, s')) (log : List Call) :
    e.recording.query statement parameters (s, log) =
      (queried, s', log ++ [.query statement parameters]) := by
  simp only [recording, h]

end Executor

namespace Planner

variable {σ ρ : Type} {p : Planner} {e : Executor σ ρ} {r : Request} {rs : List Request}
variable {s s' : σ} {block : List Call} {blocks : List (List Call)}
variable {answer : Except FetchError (Page ρ)} {answers : List (Except FetchError (Page ρ))}

/-- The executor in state `s` is called for a request, which is answered in the state after it. -/
inductive Fetches (p : Planner) (e : Executor σ ρ) (r : Request) (s : σ) :
    List Call → Except FetchError (Page ρ) → σ → Prop
  | unplanned {error : PlanError} (hplan : p.plan r = .error error) :
      Fetches p e r s [] (.error (.plan error)) s
  | uncounted {plan : Plan} {error : ExecutorError} {s' : σ} (hplan : p.plan r = .ok plan)
      (hcount : e.count plan.countStatement plan.parameters s = (.error error, s')) :
      Fetches p e r s [.count plan.countStatement plan.parameters] (.error (.count error)) s'
  | nothing {plan : Plan} {s' : σ} (hplan : p.plan r = .ok plan)
      (hcount : e.count plan.countStatement plan.parameters s = (.ok 0, s')) :
      Fetches p e r s [.count plan.countStatement plan.parameters]
        (.ok
          { content := []
            page := plan.window.page
            size := plan.window.pageSize
            totalElements := 0
            totalPages := 0 }) s'
  | unqueried {plan : Plan} {total : UInt64} {error : ExecutorError} {s' s'' : σ}
      (hplan : p.plan r = .ok plan)
      (hcount : e.count plan.countStatement plan.parameters s = (.ok total, s'))
      (htotal : total ≠ 0)
      (hquery : e.query plan.pageStatement plan.parameters s' = (.error error, s'')) :
      Fetches p e r s
        [.count plan.countStatement plan.parameters, .query plan.pageStatement plan.parameters]
        (.error (.query error)) s''
  | fetched {plan : Plan} {total : UInt64} {rows : List ρ} {s' s'' : σ}
      (hplan : p.plan r = .ok plan)
      (hcount : e.count plan.countStatement plan.parameters s = (.ok total, s'))
      (htotal : total ≠ 0)
      (hquery : e.query plan.pageStatement plan.parameters s' = (.ok rows, s'')) :
      Fetches p e r s
        [.count plan.countStatement plan.parameters, .query plan.pageStatement plan.parameters]
        (.ok
          { content := rows
            page := plan.window.page
            size := plan.window.pageSize
            totalElements := total
            totalPages := Page.pagesFor total plan.window.pageSize }) s''

/-- Requests are answered one after the other, each in the state that the last one left. -/
inductive FetchesAll (p : Planner) (e : Executor σ ρ) :
    List Request → σ → List (List Call) → List (Except FetchError (Page ρ)) → σ → Prop
  | nil (s : σ) : FetchesAll p e [] s [] [] s
  | cons {r : Request} {rs : List Request} {s s' s'' : σ} {block : List Call}
      {blocks : List (List Call)} {answer : Except FetchError (Page ρ)}
      {answers : List (Except FetchError (Page ρ))}
      (hfirst : Fetches p e r s block answer s') (hrest : FetchesAll p e rs s' blocks answers s'') :
      FetchesAll p e (r :: rs) s (block :: blocks) (answer :: answers) s''

theorem exists_fetches (p : Planner) (e : Executor σ ρ) (r : Request) (s : σ) :
    ∃ block answer s', p.Fetches e r s block answer s' := by
  cases hplan : p.plan r with
  | error error => exact ⟨_, _, _, .unplanned hplan⟩
  | ok plan =>
    obtain ⟨counted, s', hcount⟩ : ∃ counted s',
        e.count plan.countStatement plan.parameters s = (counted, s') := ⟨_, _, rfl⟩
    cases counted with
    | error error => exact ⟨_, _, _, .uncounted hplan hcount⟩
    | ok total =>
      by_cases htotal : total = 0
      · rw [htotal] at hcount
        exact ⟨_, _, _, .nothing hplan hcount⟩
      obtain ⟨queried, s'', hquery⟩ : ∃ queried s'',
          e.query plan.pageStatement plan.parameters s' = (queried, s'') := ⟨_, _, rfl⟩
      cases queried with
      | error error => exact ⟨_, _, _, .unqueried hplan hcount htotal hquery⟩
      | ok rows => exact ⟨_, _, _, .fetched hplan hcount htotal hquery⟩

/-- Fetching a page does no more than this. -/
theorem Fetches.fetchPage_eq (h : p.Fetches e r s block answer s') :
    p.fetchPage e r s = (answer, s') := by
  cases h with
  | unplanned hplan => simp only [fetchPage, hplan]
  | uncounted hplan hcount => simp only [fetchPage, fetchPlanned, hplan, hcount]
  | nothing hplan hcount =>
    simp only [fetchPage, fetchPlanned, hplan, hcount, if_true, Page.empty_eq]
  | unqueried hplan hcount htotal hquery =>
    simp only [fetchPage, fetchPlanned, hplan, hcount, htotal, hquery, if_false]
  | fetched hplan hcount htotal hquery =>
    simp only [fetchPage, fetchPlanned, hplan, hcount, htotal, hquery, if_false, Page.of]

theorem Fetches.recording (h : p.Fetches e r s block answer s') (log : List Call) :
    p.Fetches e.recording r (s, log) block answer (s', log ++ block) := by
  cases h with
  | unplanned hplan =>
    rw [List.append_nil]
    exact .unplanned hplan
  | uncounted hplan hcount => exact .uncounted hplan (Executor.recording_count hcount log)
  | nothing hplan hcount => exact .nothing hplan (Executor.recording_count hcount log)
  | unqueried hplan hcount htotal hquery =>
    rw [List.append_cons]
    exact .unqueried hplan (Executor.recording_count hcount log) htotal
      (Executor.recording_query hquery _)
  | fetched hplan hcount htotal hquery =>
    rw [List.append_cons]
    exact .fetched hplan (Executor.recording_count hcount log) htotal
      (Executor.recording_query hquery _)

theorem exists_fetchesAll (p : Planner) (e : Executor σ ρ) (rs : List Request) (s : σ) :
    ∃ blocks answers s', p.FetchesAll e rs s blocks answers s' := by
  induction rs generalizing s with
  | nil => exact ⟨_, _, _, .nil s⟩
  | cons r rs ih =>
    obtain ⟨block, answer, s', hfirst⟩ := exists_fetches p e r s
    obtain ⟨blocks, answers, s'', hrest⟩ := ih s'
    exact ⟨_, _, _, .cons hfirst hrest⟩

theorem FetchesAll.fetchPages_eq (h : p.FetchesAll e rs s blocks answers s') :
    p.fetchPages e rs s = (answers, s') := by
  induction h with
  | nil => rfl
  | cons hfirst _ ih => simp only [fetchPages, hfirst.fetchPage_eq, ih]

theorem FetchesAll.recording (h : p.FetchesAll e rs s blocks answers s') (log : List Call) :
    p.FetchesAll e.recording rs (s, log) blocks answers (s', log ++ blocks.flatten) := by
  induction h generalizing log with
  | nil s =>
    rw [List.flatten_nil, List.append_nil]
    exact .nil (s, log)
  | @cons _ _ _ _ _ block blocks _ _ hfirst _ ih =>
    rw [List.flatten_cons, ← List.append_assoc]
    exact .cons (hfirst.recording log) (ih (log ++ block))

/-- Whatever an executor answers, the calls of a list of requests are their blocks in order. -/
theorem calls_fetchPages (p : Planner) (e : Executor σ ρ) (rs : List Request) (s : σ)
    (log : List Call) :
    ∃ blocks answers s', p.FetchesAll e rs s blocks answers s' ∧
      p.fetchPages e rs s = (answers, s') ∧
      p.fetchPages e.recording rs (s, log) = (answers, s', log ++ blocks.flatten) := by
  obtain ⟨blocks, answers, s', h⟩ := exists_fetchesAll p e rs s
  exact ⟨blocks, answers, s', h, h.fetchPages_eq, (h.recording log).fetchPages_eq⟩

end Planner

end PagedQuery
