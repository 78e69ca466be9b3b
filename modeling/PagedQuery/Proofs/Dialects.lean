import PagedQuery.Proofs.Statement.Regrouping

/-!
# Plans across dialects

A dialect decides how derived tables are named, how the limit and placeholders
are spelled, whether a page needs an order and whether it may lock. Nothing else
depends on it: which error a request has, its values and its window are the same
in all dialects, and the statements of the others are those of MySQL up to these
spellings.
-/
namespace PagedQuery

open Statement (CountsInPlace)

/-- The error is one of the request, and not of what a dialect cannot do. -/
def PlanError.OfRequest : PlanError → Prop
  | unsupportedLocking .. => False
  | missingTable .. | missingFrom .. | filter .. => True

theorem PlanError.OfSource.ofRequest {e : PlanError} (h : e.OfSource) : e.OfRequest := by
  cases e <;> trivial

/-- The dialects that keep the question mark. -/
def Dialect.questioning : List Dialect :=
  [.mysql, .mariadb, .tidb, .oceanbase, .clickhouse, .sqlite]

namespace Statement

variable {d d' : Dialect} {keys : List Text} {w : Window} {t : Text} {profile : Profile}

theorem derivedTable_congr (h : d.namesWithAs = d'.namesWithAs) :
    d.derivedTable = d'.derivedTable := by
  funext query tableAlias
  unfold Dialect.derivedTable Dialect.derivedName
  rw [h]

/-- The statement of a request depends on the dialect only where a filter wraps a set operation. -/
theorem restrictSetOperation_congr (h : d.namesWithAs = d'.namesWithAs) (parameters : List Value)
    (f : Fragment) :
    restrictSetOperation d t parameters f = restrictSetOperation d' t parameters f := by
  unfold restrictSetOperation
  rw [derivedTable_congr h]

theorem restrictSetOperation_parameters_eq (parameters : List Value) (f : Fragment) :
    (restrictSetOperation d t parameters f).parameters =
      (restrictSetOperation d' t parameters f).parameters := by
  unfold restrictSetOperation
  split <;> rfl

theorem ofRequest_congr (h : d.namesWithAs = d'.namesWithAs) (r : Request) (f : Fragment) :
    ofRequest d r profile f = ofRequest d' r profile f := by
  unfold ofRequest
  simp only [restrictSetOperation_congr h]

theorem ofRequest_eq_of_single (h : profile.hasSetOperation = false) (r : Request) (f : Fragment) :
    ofRequest d r profile f = ofRequest d' r profile f := by
  unfold ofRequest
  simp only [h, Bool.false_eq_true, if_false]

/-- Every dialect has the same errors and values. -/
theorem ofRequest_map_parameters (r : Request) (f : Fragment) :
    (ofRequest d r profile f).map Statement.parameters =
      (ofRequest d' r profile f).map Statement.parameters := by
  unfold ofRequest
  cases base r profile with
  | error e => rfl
  | ok t =>
    dsimp only
    split
    · exact congrArg Except.ok (restrictSetOperation_parameters_eq r.parameters f)
    · rfl

theorem count_congr (h : d.namesWithAs = d'.namesWithAs) (tableAlias : Text) :
    count d tableAlias profile t = count d' tableAlias profile t := by
  unfold count countWrapped
  rw [derivedTable_congr h]

theorem count_eq_of_countsInPlace {tableAlias : Text}
    (h : CountsInPlace t (count d tableAlias profile t)) :
    count d' tableAlias profile t = count d tableAlias profile t := by
  have h' : CountsInPlace t (count d' tableAlias profile t) :=
    countsInPlace_count_iff.mpr (countsInPlace_count_iff.mp h)
  obtain ⟨own, fromAt, hown, hfrom, hcount⟩ := h
  obtain ⟨own', fromAt', hown', hfrom', hcount'⟩ := h'
  obtain rfl := Option.some.inj (hown.symm.trans hown')
  obtain rfl := Option.some.inj (hfrom.symm.trans hfrom')
  exact hcount'.trans hcount.symm

theorem unlimited_congr (h : d.namesWithAs = d'.namesWithAs) : unlimited d t = unlimited d' t := by
  unfold unlimited
  rw [derivedTable_congr h]

theorem exists_page (h : d.locksPages = true) : ∃ u, page d keys w t = .ok u := by
  unfold page
  simp only [h, not_true_eq_false, and_false, if_false]
  exact ⟨_, rfl⟩

theorem page_congr (hnames : d.namesWithAs = d'.namesWithAs) (hlocks : d.locksPages = true)
    (hlocks' : d'.locksPages = true) (hlimit : d.limitSyntax = d'.limitSyntax)
    (horder : d.needsOrder = d'.needsOrder) : page d keys w t = page d' keys w t := by
  unfold page addedOrder
  simp only [hlocks, hlocks', hlimit, horder, unlimited_congr hnames, not_true_eq_false, and_false,
    if_false]

theorem page_isOk_congr (hnames : d.namesWithAs = d'.namesWithAs)
    (hlocks : d.locksPages = d'.locksPages) :
    (page d keys w t).isOk = (page d' keys w t).isOk := by
  unfold page
  simp only [unlimited_congr hnames, hlocks]
  split <;> rfl

end Statement

namespace Planner

/-- The plan of a request in each dialect. -/
def plans (options : PageOptions) (r : Request) (d : Dialect) : Except PlanError Plan :=
  ({ dialect := d, options } : Planner).plan r

def statements (options : PageOptions) (r : Request) (d : Dialect) : Except PlanError Statement :=
  ({ dialect := d, options } : Planner).statement r

/-- What the plans of a request in the ten dialects have in common with its plan for MySQL. -/
structure Refines (options : PageOptions) (r : Request) : Prop where
  error_iff : ∀ e, e.OfRequest →
    ((∃ d, plans options r d = .error e) ↔ ∀ d, plans options r d = .error e)
  locking : ∀ d d' t, plans options r d = .error (.unsupportedLocking d' t) →
    d' = d ∧ (d = .oracle ∨ d = .oracleLegacy)
  values : ∀ d d' p p', plans options r d = .ok p → plans options r d' = .ok p' →
    p.parameters = p'.parameters ∧ p.window = p'.window
  questioning : ∀ d ∈ Dialect.questioning,
    plans options r d = (plans options r .mysql).map fun p => { p with dialect := d }
  postgres : plans options r .postgres = (plans options r .mysql).map fun p =>
    { p with
      countStatement := Placeholder.restyle .dollar p.countStatement
      pageStatement := Placeholder.restyle .dollar p.pageStatement
      dialect := .postgres }
  sqlserver : (plans options r .sqlserver).map Plan.countStatement =
    (plans options r .mysql).map fun p => Placeholder.restyle .atP p.countStatement
  oracle : (plans options r .oracle).toOption.map Plan.countStatement =
    (plans options r .oracleLegacy).toOption.map Plan.countStatement
  inPlace : ∀ d ∈ [Dialect.oracle, Dialect.oracleLegacy], ∀ s m p,
    (Profile.of r.source).hasSetOperation = false → statements options r .mysql = .ok s →
    plans options r .mysql = .ok m → CountsInPlace s.text m.countStatement →
    plans options r d = .ok p → p.countStatement = Placeholder.restyle .colon m.countStatement

variable {options : PageOptions} {r : Request} {d d' : Dialect} {s : Statement} {e : PlanError}

theorem statements_congr (h : d.namesWithAs = d'.namesWithAs) :
    statements options r d = statements options r d' := by
  unfold statements statement
  simp only [Statement.ofRequest_congr h]

theorem statements_eq_of_single (h : (Profile.of r.source).hasSetOperation = false) :
    statements options r d = statements options r d' := by
  have hsame (f : Fragment) : Statement.ofRequest d r (Profile.of r.source) f =
      Statement.ofRequest d' r (Profile.of r.source) f := Statement.ofRequest_eq_of_single h r f
  unfold statements statement
  simp only [hsame]

theorem statements_map_parameters (options : PageOptions) (r : Request) (d d' : Dialect) :
    (statements options r d).map Statement.parameters =
      (statements options r d').map Statement.parameters := by
  unfold statements statement
  split
  · rfl
  · exact Statement.ofRequest_map_parameters r _

theorem ofRequest_of_statements (h : statements options r d = .error e) : e.OfRequest := by
  unfold statements statement at h
  split at h
  · exact Except.error.inj h ▸ trivial
  · exact (Statement.ofRequest_error h).ofRequest

theorem plans_of_error (h : statements options r d = .error e) : plans options r d = .error e := by
  unfold plans plan
  rw [show ({ dialect := d, options } : Planner).statement r = .error e from h]

theorem plans_of_ok (h : statements options r d = .ok s) :
    plans options r d = (({ dialect := d, options } : Planner).pageText r s).map fun pageText =>
      { countStatement := Placeholder.restyle d.placeholderStyle
          (({ dialect := d, options } : Planner).countText r s)
        pageStatement := Placeholder.restyle d.placeholderStyle pageText
        parameters := s.parameters
        window := ({ dialect := d, options } : Planner).window r
        dialect := d } := by
  unfold plans plan
  rw [show ({ dialect := d, options } : Planner).statement r = .ok s from h]
  dsimp only
  split
  · rename_i hpage
    rw [hpage]
    rfl
  · rename_i hpage
    rw [hpage]
    rfl

/-- An error of a plan is one of the statement, in every dialect, or of a lock. -/
theorem eq_of_plans_error (h : plans options r d = .error e) :
    (e.OfRequest ∧ ∀ d', statements options r d' = .error e) ∨
      d.locksPages = false ∧ ∃ t, e = .unsupportedLocking d t := by
  cases hs : statements options r d with
  | error e' =>
    left
    have he : e' = e := Except.error.inj ((plans_of_error hs).symm.trans h)
    subst he
    refine ⟨ofRequest_of_statements hs, fun d' => ?_⟩
    have hmap := statements_map_parameters options r d' d
    rw [hs] at hmap
    cases hs' : statements options r d' with
    | error e'' =>
      rw [hs'] at hmap
      exact congrArg Except.error (Except.error.inj hmap)
    | ok s' =>
      rw [hs'] at hmap
      exact absurd hmap (by simp [Except.map])
  | ok s =>
    right
    rw [plans_of_ok hs] at h
    cases hpage : ({ dialect := d, options } : Planner).pageText r s with
    | error e' =>
      rw [hpage] at h
      obtain rfl := Except.error.inj h
      obtain ⟨hlocks, heq⟩ := Statement.eq_of_page_error hpage
      exact ⟨hlocks, _, heq⟩
    | ok pageText =>
      rw [hpage] at h
      exact absurd h (by simp [Except.map])

/-- A dialect with the conventions of MySQL, placeholders apart, has its plan restyled. -/
theorem plans_eq_restyled (hnames : d.namesWithAs = true) (hlocks : d.locksPages = true)
    (hlimit : d.limitSyntax = .limitOffset) (horder : d.needsOrder = false) :
    plans options r d = (plans options r .mysql).map fun p =>
      { p with
        countStatement := Placeholder.restyle d.placeholderStyle p.countStatement
        pageStatement := Placeholder.restyle d.placeholderStyle p.pageStatement
        dialect := d } := by
  have hstatements : statements options r d = statements options r .mysql := statements_congr hnames
  cases hs : statements options r .mysql with
  | error e => rw [plans_of_error hs, plans_of_error (hstatements.trans hs), Except.map]
  | ok s =>
    have hpage : ({ dialect := d, options } : Planner).pageText r s =
        ({ dialect := .mysql, options } : Planner).pageText r s :=
      Statement.page_congr hnames hlocks rfl hlimit horder
    have hcount : ({ dialect := d, options } : Planner).countText r s =
        ({ dialect := .mysql, options } : Planner).countText r s := Statement.count_congr hnames _
    rw [plans_of_ok hs, plans_of_ok (hstatements.trans hs), hpage, hcount]
    cases ({ dialect := .mysql, options } : Planner).pageText r s with
    | error e => rfl
    | ok pageText => rfl

theorem plans_error_iff (he : e.OfRequest) :
    (∃ d, plans options r d = .error e) ↔ ∀ d, plans options r d = .error e := by
  constructor
  · rintro ⟨d, hd⟩ d'
    rcases eq_of_plans_error hd with ⟨-, hall⟩ | ⟨-, t, rfl⟩
    · exact plans_of_error (hall d')
    · exact absurd he id
  · intro hall
    exact ⟨.mysql, hall .mysql⟩

theorem plans_locking {t : Text} (h : plans options r d = .error (.unsupportedLocking d' t)) :
    d' = d ∧ (d = .oracle ∨ d = .oracleLegacy) := by
  rcases eq_of_plans_error h with ⟨he, -⟩ | ⟨hlocks, t, heq⟩
  · exact absurd he id
  · refine ⟨(PlanError.unsupportedLocking.inj heq).1, ?_⟩
    cases d with
    | oracle => exact Or.inl rfl
    | oracleLegacy => exact Or.inr rfl
    | _ => exact absurd hlocks (by decide)

theorem plans_values {p p' : Plan} (h : plans options r d = .ok p)
    (h' : plans options r d' = .ok p') : p.parameters = p'.parameters ∧ p.window = p'.window := by
  obtain ⟨s, _, hs, _, rfl⟩ := eq_of_plan h
  obtain ⟨s', _, hs', _, rfl⟩ := eq_of_plan h'
  have hmap := statements_map_parameters options r d d'
  rw [show statements options r d = .ok s from hs, show statements options r d' = .ok s' from hs']
    at hmap
  exact ⟨Except.ok.inj hmap, rfl⟩

theorem plans_sqlserver : (plans options r .sqlserver).map Plan.countStatement =
    (plans options r .mysql).map fun p => Placeholder.restyle .atP p.countStatement := by
  have hstatements : statements options r .sqlserver = statements options r .mysql :=
    statements_congr rfl
  cases hs : statements options r .mysql with
  | error e => rw [plans_of_error hs, plans_of_error (hstatements.trans hs), Except.map, Except.map]
  | ok s =>
    have hcount : ({ dialect := .sqlserver, options } : Planner).countText r s =
        ({ dialect := .mysql, options } : Planner).countText r s := Statement.count_congr rfl _
    obtain ⟨u, hu⟩ : ∃ u, ({ dialect := .mysql, options } : Planner).pageText r s = .ok u :=
      Statement.exists_page rfl
    obtain ⟨u', hu'⟩ : ∃ u, ({ dialect := .sqlserver, options } : Planner).pageText r s = .ok u :=
      Statement.exists_page rfl
    rw [plans_of_ok hs, plans_of_ok (hstatements.trans hs), hu, hu', hcount]
    rfl

theorem plans_oracle : (plans options r .oracle).toOption.map Plan.countStatement =
    (plans options r .oracleLegacy).toOption.map Plan.countStatement := by
  have hstatements : statements options r .oracleLegacy = statements options r .oracle :=
    statements_congr rfl
  cases hs : statements options r .oracle with
  | error e => rw [plans_of_error hs, plans_of_error (hstatements.trans hs)]
  | ok s =>
    have hcount : ({ dialect := .oracleLegacy, options } : Planner).countText r s =
        ({ dialect := .oracle, options } : Planner).countText r s := Statement.count_congr rfl _
    have hok : (({ dialect := .oracleLegacy, options } : Planner).pageText r s).isOk =
        (({ dialect := .oracle, options } : Planner).pageText r s).isOk :=
      Statement.page_isOk_congr rfl rfl
    rw [plans_of_ok hs, plans_of_ok (hstatements.trans hs), hcount]
    cases hpage : ({ dialect := .oracle, options } : Planner).pageText r s <;>
      cases hpage' : ({ dialect := .oracleLegacy, options } : Planner).pageText r s <;>
      rw [hpage, hpage'] at hok
    · rfl
    · exact Bool.noConfusion hok
    · exact Bool.noConfusion hok
    · rfl

theorem plans_inPlace {m p : Plan} (hsingle : (Profile.of r.source).hasSetOperation = false)
    (hs : statements options r .mysql = .ok s) (hm : plans options r .mysql = .ok m)
    (hcounts : CountsInPlace s.text m.countStatement) (hp : plans options r d = .ok p) :
    p.countStatement = Placeholder.restyle d.placeholderStyle m.countStatement := by
  obtain ⟨sm, _, hsm, _, rfl⟩ := eq_of_plan hm
  obtain ⟨sp, _, hsp, _, rfl⟩ := eq_of_plan hp
  obtain rfl := Except.ok.inj (hs.symm.trans hsm)
  have hsame := hs.symm.trans ((statements_eq_of_single hsingle).trans hsp)
  obtain rfl := Except.ok.inj hsame
  have hcount : ({ dialect := d, options } : Planner).countText r s =
      ({ dialect := .mysql, options } : Planner).countText r s :=
    Statement.count_eq_of_countsInPlace hcounts
  exact congrArg (Placeholder.restyle d.placeholderStyle) hcount

/-- Dialects differ in their spellings only: all of them plan a request like MySQL does. -/
theorem plans_refine_mysql (options : PageOptions) (r : Request) : Refines options r where
  error_iff _ := plans_error_iff
  locking _ _ _ := plans_locking
  values _ _ _ _ := plans_values
  questioning d hd := by
    simp only [Dialect.questioning, List.mem_cons, List.not_mem_nil, or_false] at hd
    rcases hd with rfl | rfl | rfl | rfl | rfl | rfl <;> exact plans_eq_restyled rfl rfl rfl rfl
  postgres := plans_eq_restyled rfl rfl rfl rfl
  sqlserver := plans_sqlserver
  oracle := plans_oracle
  inPlace d hd _ _ _ hsingle hs hm hcounts hp := by
    have hstyle : d.placeholderStyle = .colon := by
      simp only [List.mem_cons, List.not_mem_nil, or_false] at hd
      rcases hd with rfl | rfl <;> rfl
    exact hstyle ▸ plans_inPlace hsingle hs hm hcounts hp

/-- A source with a number of its own in front of a placeholder. -/
def numberedOrders : Request :=
  { source := "SELECT * FROM orders WHERE a = $2 AND b = ?".toList
    parameters := [.null, .bool true, .bool false] }

/-- Its plan for PostgreSQL goes on numbering in the statements for MySQL. -/
theorem plans_refine_mysql_numberedOrders : ∃ m, plans {} numberedOrders .mysql = .ok m ∧
    m.countStatement = "SELECT COUNT(*) FROM orders WHERE a = $2 AND b = ?".toList ∧
    (plans {} numberedOrders .postgres).map Plan.countStatement =
      .ok "SELECT COUNT(*) FROM orders WHERE a = $2 AND b = $3".toList := by
  obtain ⟨m, hm⟩ : ∃ m, plans {} numberedOrders .mysql = .ok m := ⟨_, rfl⟩
  have hcount : (plans {} numberedOrders .mysql).map Plan.countStatement =
      .ok "SELECT COUNT(*) FROM orders WHERE a = $2 AND b = ?".toList := by decide +kernel
  have hpostgres := congrArg (Except.map Plan.countStatement)
    (plans_refine_mysql {} numberedOrders).postgres
  rw [hm] at hcount hpostgres
  refine ⟨m, hm, Except.ok.inj hcount, hpostgres.trans ?_⟩
  refine congrArg Except.ok ?_
  change Placeholder.restyle .dollar m.countStatement = _
  rw [Except.ok.inj hcount]
  decide +kernel

end Planner

end PagedQuery
