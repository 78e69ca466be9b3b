import PagedQuery.Proofs.Plan
import PagedQuery.Proofs.Statement.Closure
import PagedQuery.Proofs.Trace.Stages

/-!
# Values and placeholders

Every placeholder of the count statement and of the page statement of a plan is
one that the caller wrote in the source or in the filter, both statements have
the same ones in the same order, and the values of the plan are those that the
caller supplied for them, in that order.
-/
namespace PagedQuery.Planner

open Trace (Carries)
open Placeholder (Neutral)

/-- The source and the filter bring one value for each of their placeholders. Every text of the
caller closes its quotes and has no number in the style of the dialect. -/
structure Supplied (p : Planner) (r : Request) (f : Fragment) : Prop where
  source_closed : Quote.Closed r.source
  source_count : Placeholder.count r.source = r.parameters.length
  source_unnumbered : Placeholder.highest p.dialect.placeholderStyle r.source = 0
  filter_closed : Quote.Closed f.text
  filter_count : Placeholder.count f.text = f.values.length
  filter_unnumbered : Placeholder.highest p.dialect.placeholderStyle f.text = 0
  table : ∀ t ∈ r.table, Neutral p.dialect.placeholderStyle t
  order : ∀ key ∈ r.orderFragments, Neutral p.dialect.placeholderStyle key
  countAlias : Neutral p.dialect.placeholderStyle p.options.countAlias

/-- The value that the caller supplied for a placeholder. -/
def supplied? (r : Request) (f : Fragment) : Origin → Option Value
  | .source k => r.parameters[k]?
  | .filter k => f.values[k]?

/-- The placeholders of the source, with those of the filter put in at a position. -/
def injected (sources filters position : Nat) : List Origin :=
  ((List.range sources).map .source).take position ++ (List.range filters).map .filter ++
    ((List.range sources).map .source).drop position

/-- The traces of the statement, of its count and of its page tell where the placeholders of a plan
come from. -/
structure Aligned (p : Planner) (r : Request) (f : Fragment) (plan : Plan) (statement : Statement)
    (traced counted paged : Trace) (position : Nat) : Prop where
  statement_eq : p.statement r = .ok statement
  traced_eq : Trace.ofRequest p.dialect r (.of r.source) f.text = .ok traced
  counted_eq : Trace.count p.dialect p.options.countAlias (.of r.source) traced = counted
  paged_eq : Trace.page p.dialect r.orderFragments (p.window r) traced = .ok paged
  /-- The traces are those of the statements before numbering. -/
  counted_text : counted.text = p.countText r statement
  paged_text : p.pageText r statement = .ok paged.text
  /-- Both statements number their placeholders from one on. -/
  countStatement_eq : plan.countStatement =
    Placeholder.numberFrom p.dialect.placeholderStyle 0 .outside counted.text
  pageStatement_eq : plan.pageStatement =
    Placeholder.numberFrom p.dialect.placeholderStyle 0 .outside paged.text
  count_counted : Placeholder.count counted.text = plan.parameters.length
  count_paged : Placeholder.count paged.text = plan.parameters.length
  /-- Both have the same placeholders of the caller, in the same order. -/
  counted_placeholders : counted.placeholders =
    (injected r.parameters.length f.values.length position).map some
  paged_placeholders : paged.placeholders =
    (injected r.parameters.length f.values.length position).map some
  /-- The values are those supplied for these placeholders. -/
  parameters_supplied : plan.parameters.map some =
    (injected r.parameters.length f.values.length position).map (supplied? r f)
  parameters_eq : plan.parameters = Statement.splice r.parameters position f.values
  position_le : position ≤ r.parameters.length
  /-- A set operation is filtered behind all of its placeholders, a single statement where its tail
  begins. -/
  position_of_setOperation : (Profile.of r.source).hasSetOperation = true →
    position = r.parameters.length
  position_of_clauses : (Profile.of r.source).hasSetOperation = false →
    ∀ t clauses, Statement.base r (.of r.source) = .ok t → Clauses.of? t = some clauses →
      position = Placeholder.count (t.take clauses.tailAt)

theorem map_range_getElem? (values : List Value) :
    (List.range values.length).map (values[·]?) = values.map some := by
  refine List.ext_getElem? fun i => ?_
  rw [List.getElem?_map, List.getElem?_map]
  rcases Nat.lt_or_ge i values.length with hi | hi
  · rw [List.getElem?_range hi, Option.map_some, List.getElem?_eq_getElem hi, Option.map_some]
  · rw [List.getElem?_eq_none (by rwa [List.length_range]), List.getElem?_eq_none hi]
    rfl

/-- Values that are put in where placeholders are put in are the supplied ones. -/
theorem map_supplied?_injected (r : Request) (f : Fragment) (position : Nat) :
    (injected r.parameters.length f.values.length position).map (supplied? r f) =
      (Statement.splice r.parameters position f.values).map some := by
  have hsource : ((List.range r.parameters.length).map Origin.source).map (supplied? r f) =
      r.parameters.map some := by
    rw [List.map_map]
    exact map_range_getElem? r.parameters
  have hfilter : ((List.range f.values.length).map Origin.filter).map (supplied? r f) =
      f.values.map some := by
    rw [List.map_map]
    exact map_range_getElem? f.values
  rw [injected, Statement.splice, List.map_append, List.map_append, List.map_take, List.map_drop,
    hsource, hfilter, List.map_append, List.map_append, List.map_take, List.map_drop]

theorem numberFrom_question (used : UInt64) (q : Quote) (t : Text) :
    Placeholder.numberFrom .question used q t = t := by
  induction t generalizing used q with
  | nil => rfl
  | cons c t ih =>
    rw [Placeholder.numberFrom]
    split
    · rename_i h
      rw [ih, h.2]
      rfl
    · rw [ih]

/-- A text without numbers is numbered from one on. -/
theorem restyle_of_unnumbered {style : PlaceholderStyle} {t : Text}
    (h : Placeholder.highest style t = 0) :
    Placeholder.restyle style t = Placeholder.numberFrom style 0 .outside t := by
  cases style with
  | question => rw [Placeholder.restyle_question, numberFrom_question]
  | dollar => rw [Placeholder.restyle, h]; exact nofun
  | atP => rw [Placeholder.restyle, h]; exact nofun
  | colon => rw [Placeholder.restyle, h]; exact nofun

theorem Supplied.values_of_isEmpty {p : Planner} {r : Request} {f : Fragment}
    (h : p.Supplied r f) (hempty : f.text.isEmpty = true) : f.values = [] := by
  have hcount := h.filter_count
  rw [List.isEmpty_iff.mp hempty] at hcount
  exact List.length_eq_zero_iff.mp hcount.symm

theorem restrictSetOperation_parameters {d : Dialect} (t : Text) {parameters : List Value}
    {f : Fragment} (h : f.text.isEmpty = true → f.values = []) :
    (Statement.restrictSetOperation d t parameters f).parameters = parameters ++ f.values := by
  unfold Statement.restrictSetOperation
  split
  · rename_i hempty
    rw [h hempty, List.append_nil]
  · rfl

theorem restrict_parameters {t : Text} {clauses : Clauses} {parameters : List Value} {f : Fragment}
    (h : f.text.isEmpty = true → f.values = []) :
    (Statement.restrict t clauses parameters f).parameters =
      Statement.splice parameters
        (min (Placeholder.count (Statement.head t clauses)) parameters.length) f.values := by
  unfold Statement.restrict
  split
  · rename_i hempty
    rw [h hempty, Statement.splice, List.append_nil, List.take_append_drop]
  · rfl

theorem ok_of_map_text {e : Except PlanError Trace} {t : Text}
    (h : e.map Trace.text = .ok t) : ∃ m, e = .ok m ∧ m.text = t := by
  cases e with
  | error e => exact absurd h (by simp [Except.map])
  | ok m => exact ⟨m, rfl, Except.ok.inj h⟩

/-- The placeholders of the filter go in where the tail of a single statement begins and behind a set
operation. The values of the filter are put in after as many values as there are placeholders of the
source in front of the tail, and behind all values of a set operation. -/
theorem carries_ofRequest {style : PlaceholderStyle} {d : Dialect} {r : Request} {f : Fragment}
    {sources filters : List Origin} {traced : Trace} {statement : Statement}
    (hsource : Carries style (Trace.label .source r.source) sources)
    (hfilter : Carries style (Trace.label .filter f.text) filters)
    (htable : ∀ t ∈ r.table, Neutral style t)
    (htraced : Trace.ofRequest d r (.of r.source) f.text = .ok traced)
    (hstatement : Statement.ofRequest d r (.of r.source) f = .ok statement) :
    ∃ position ≤ sources.length,
      ((Profile.of r.source).hasSetOperation = true → position = sources.length) ∧
      ((Profile.of r.source).hasSetOperation = false →
        ∀ t clauses, Statement.base r (.of r.source) = .ok t → Clauses.of? t = some clauses →
          position = Placeholder.count (t.take clauses.tailAt)) ∧
      ((f.text.isEmpty = true → f.values = []) →
        statement.parameters =
          if (Profile.of r.source).hasSetOperation then r.parameters ++ f.values
          else Statement.splice r.parameters position f.values) ∧
      Carries style traced (sources.take position ++ filters ++ sources.drop position) := by
  obtain ⟨t, hbase, hcases⟩ := Statement.ofRequest_cases hstatement
  obtain ⟨m, hm, rfl⟩ := ok_of_map_text ((Trace.text_base r (.of r.source)).trans hbase)
  have hcarries := Trace.carries_base hsource htable hm
  unfold Trace.ofRequest at htraced
  rw [hm] at htraced
  simp only at htraced
  rcases hcases with ⟨hset, rfl⟩ | ⟨hset, clauses, hc, rfl⟩
  · rw [if_pos hset] at htraced
    obtain rfl := Except.ok.inj htraced
    refine ⟨sources.length, Nat.le_refl _, fun _ => rfl, fun hsingle => ?_, fun hvalues => ?_, ?_⟩
    · rw [hset] at hsingle
      exact absurd hsingle (by decide)
    · rw [if_pos hset, restrictSetOperation_parameters m.text hvalues]
    · have hall := Trace.carries_restrictSetOperation d hcarries hfilter
      rwa [List.take_length, List.drop_length, List.append_nil]
  · have hsingle := Bool.eq_false_iff.mp hset
    rw [if_neg hsingle, hc] at htraced
    obtain rfl := Except.ok.inj htraced
    have hhead := (Trace.carries_head hcarries hc).count
    rw [Trace.text_head, List.length_take] at hhead
    have hfront := (hcarries.cut (Trace.cut_of_tailAt hcarries hc)).1.count
    rw [Trace.text_take, List.length_take] at hfront
    refine ⟨min (Placeholder.count (m.text.take clauses.tailAt)) sources.length,
      Nat.min_le_right _ _, fun hs => absurd hs hsingle, fun _ t clauses' ht hc' => ?_,
      fun hvalues => ?_, ?_⟩
    · obtain rfl := Except.ok.inj (hbase.symm.trans ht)
      obtain rfl := Option.some.inj (hc.symm.trans hc')
      exact hfront.symm
    · rw [if_neg hsingle, restrict_parameters hvalues, hhead, Statement.splice, Statement.splice,
        ← List.take_eq_take_min, ← List.drop_eq_drop_min]
    · have hall := Trace.carries_restrict hcarries hc hfilter
      rwa [List.take_eq_take_min, List.drop_eq_drop_min] at hall

/-- The statement of a request carries the placeholders of the source with those of the filter put
in where their values are put in. -/
theorem Supplied.carries_statement {p : Planner} {r : Request} {f : Fragment}
    (h : p.Supplied r f) {traced : Trace} {statement : Statement}
    (htraced : Trace.ofRequest p.dialect r (.of r.source) f.text = .ok traced)
    (hstatement : Statement.ofRequest p.dialect r (.of r.source) f = .ok statement) :
    ∃ position ≤ r.parameters.length,
      ((Profile.of r.source).hasSetOperation = true → position = r.parameters.length) ∧
      ((Profile.of r.source).hasSetOperation = false →
        ∀ t clauses, Statement.base r (.of r.source) = .ok t → Clauses.of? t = some clauses →
          position = Placeholder.count (t.take clauses.tailAt)) ∧
      statement.parameters = Statement.splice r.parameters position f.values ∧
      Carries p.dialect.placeholderStyle traced
        (injected r.parameters.length f.values.length position) := by
  have hsource := Trace.carries_label .source h.source_closed h.source_unnumbered
  have hfilter := Trace.carries_label .filter h.filter_closed h.filter_unnumbered
  rw [h.source_count] at hsource
  rw [h.filter_count] at hfilter
  obtain ⟨position, hle, hset, hclauses, hparameters, hcarries⟩ :=
    carries_ofRequest hsource hfilter h.table htraced hstatement
  rw [List.length_map, List.length_range] at hle hset
  refine ⟨position, hle, hset, hclauses, ?_, hcarries⟩
  rw [hparameters h.values_of_isEmpty]
  split
  · rename_i hs
    rw [hset hs, Statement.splice, List.take_length, List.drop_length, List.append_nil]
  · rfl

/-- The count statement and the page statement of a plan hold the same placeholders of the caller in
the same order, one for each value of the plan, and each value is the one supplied for it. -/
theorem plan_aligned {p : Planner} {r : Request} {f : Fragment} {plan : Plan}
    (hf : r.filter.render = .ok f) (h : p.Supplied r f) (hplan : p.plan r = .ok plan) :
    ∃ statement traced counted paged position,
      p.Aligned r f plan statement traced counted paged position := by
  obtain ⟨s, pageText, hs, hg, rfl⟩ := eq_of_plan hplan
  have hstatement : Statement.ofRequest p.dialect r (.of r.source) f = .ok s := by
    rw [← hs, statement, hf]
  obtain ⟨traced, htraced, htext⟩ := ok_of_map_text
    ((Trace.text_ofRequest p.dialect r (.of r.source) f).trans
      (congrArg (Except.map Statement.text) hstatement))
  obtain ⟨paged, hpaged, hpagedText⟩ := ok_of_map_text
    ((Trace.text_page p.dialect r.orderFragments (p.window r) traced).trans
      ((congrArg (Statement.page p.dialect r.orderFragments (p.window r)) htext).trans hg))
  have hcountText := Trace.text_count p.dialect p.options.countAlias (.of r.source) traced
  rw [htext] at hcountText
  obtain ⟨position, hle, hset, hclauses, hparameters, hcarries⟩ :=
    h.carries_statement htraced hstatement
  have hcounted := Trace.carries_count p.dialect (.of r.source) hcarries h.countAlias
  have hpagedCarries := Trace.carries_page hcarries h.order hpaged
  have hvalues := map_supplied?_injected r f position
  rw [← hparameters] at hvalues
  have hlength := congrArg List.length hvalues
  rw [List.length_map, List.length_map] at hlength
  refine ⟨s, traced, Trace.count p.dialect p.options.countAlias (.of r.source) traced, paged,
    position, ?_⟩
  exact
    { statement_eq := hs
      traced_eq := htraced
      counted_eq := rfl
      paged_eq := hpaged
      counted_text := hcountText
      paged_text := hpagedText ▸ hg
      countStatement_eq := by
        rw [← restyle_of_unnumbered hcounted.unnumbered, hcountText]
        rfl
      pageStatement_eq := by
        rw [← restyle_of_unnumbered hpagedCarries.unnumbered, hpagedText]
      count_counted := hcounted.count.trans hlength
      count_paged := hpagedCarries.count.trans hlength
      counted_placeholders := hcounted.placeholders
      paged_placeholders := hpagedCarries.placeholders
      parameters_supplied := hvalues.symm
      parameters_eq := hparameters
      position_le := hle
      position_of_setOperation := hset
      position_of_clauses := hclauses }

/-- A request with placeholders in its select list, in its condition with `OR` and in its limit. -/
def sampled : Request :=
  { source := "SELECT a, ? FROM t WHERE b = ? OR c = 'x?' ORDER BY a LIMIT ?".toList
    parameters := [.text "u".toList, .text "v".toList, .text "w".toList]
    filter := .raw " d = ? ".toList [.null] }

theorem plan_aligned_sampled : ∃ plan statement traced counted paged position,
    ({ dialect := .postgres } : Planner).plan sampled = .ok plan ∧
      ({ dialect := .postgres } : Planner).Aligned sampled ⟨"d = ?".toList, [.null]⟩ plan statement
        traced counted paged position := by
  have hf : sampled.filter.render = .ok ⟨"d = ?".toList, [.null]⟩ := by rfl
  have h : ({ dialect := .postgres } : Planner).Supplied sampled ⟨"d = ?".toList, [.null]⟩ :=
    { source_closed := by decide
      source_count := by decide
      source_unnumbered := by decide +kernel
      filter_closed := by decide
      filter_count := by decide
      filter_unnumbered := by decide
      table := nofun
      order := by decide
      countAlias := by decide }
  obtain ⟨plan, hplan⟩ : ∃ plan, ({ dialect := .postgres } : Planner).plan sampled = .ok plan := by
    have hok : (({ dialect := .postgres } : Planner).plan sampled).toOption.isSome = true := by
      decide +kernel
    cases hplan : ({ dialect := .postgres } : Planner).plan sampled with
    | error e =>
      rw [hplan] at hok
      exact absurd hok Bool.false_ne_true
    | ok plan => exact ⟨plan, rfl⟩
  obtain ⟨statement, traced, counted, paged, position, haligned⟩ := plan_aligned hf h hplan
  exact ⟨plan, statement, traced, counted, paged, position, hplan, haligned⟩

end PagedQuery.Planner
