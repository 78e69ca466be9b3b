import PagedQuery.Proofs.Build.Values
import PagedQuery.Proofs.Plan

/-!
# Strict predicates

A strict predicate is built like a lenient one: after the same steps both have the
same terms and values. All that it adds is a list of what was left out, in the order
in which the steps run. The groups of a strict predicate are strict, and what is left
out in a group stands in front of the group itself, which is left out when nothing
remains of it. As long as the list is empty nobody can tell the two apart; its first
entry stands in place of the fragment, and of a plan.
-/
namespace PagedQuery

namespace Condition

/-- Why there is nothing to add, the field before what is said about it. -/
def reason? : Condition → Option Reason
  | fragment text _ | verbatim text _ =>
    if Text.trim text = [] then some .emptyFragment else none
  | existence _ subquery _ => if Text.trim subquery = [] then some .emptySubquery else none
  | compare field _ _ | range _ field _ _ | nullness _ field =>
    if Text.trim field = [] then some .emptyField else none
  | membership _ field values =>
    if Text.trim field = [] then some .emptyField
    else
      match values with
      | .array [] => some .emptySequence
      | .array (_ :: _) => none
      | value => some (.notSequence value.kind)
  | pattern _ field mask =>
    if Text.trim field = [] then some .emptyField
    else if mask = [] then some .emptyPattern
    else none

variable {c : Condition}

theorem onField_eq_error_iff {field : Text} {rendered : Except Reason Fragment} {reason : Reason} :
    onField field rendered = .error reason ↔
      if Text.trim field = [] then reason = .emptyField else rendered = .error reason := by
  simp only [onField, Text.isAllBlank_iff]
  split <;> simp [eq_comm]

theorem error_of_trim_iff {text : Text} {f : Fragment} {reason why : Reason} :
    (if Text.isAllBlank text then .error why else .ok f : Except Reason Fragment) =
      .error reason ↔ (if Text.trim text = [] then some why else none) = some reason := by
  simp only [Text.isAllBlank_iff]
  split <;> simp

theorem render_eq_error_iff {reason : Reason} :
    c.render = .error reason ↔ c.reason? = some reason := by
  cases c with
  | fragment text values => exact error_of_trim_iff
  | verbatim text values => exact error_of_trim_iff
  | existence negated subquery values => exact error_of_trim_iff
  | compare field comparison value =>
    rw [render, onField_eq_error_iff, reason?]
    split <;> simp [eq_comm]
  | range negated field low high =>
    rw [render, onField_eq_error_iff, reason?]
    split <;> simp [eq_comm]
  | nullness negated field =>
    rw [render, onField_eq_error_iff, reason?]
    split <;> simp [eq_comm]
  | membership negated field values =>
    simp only [render, onField_eq_error_iff, reason?]
    by_cases hfield : Text.trim field = []
    · simp [hfield, eq_comm]
    · rw [if_neg hfield, if_neg hfield]
      cases values with
      | array items => cases items <;> simp
      | _ => simp
  | pattern negated field mask =>
    rw [render, onField_eq_error_iff, reason?]
    split
    · simp [eq_comm]
    · cases mask <;> simp

theorem isSome_reason?_iff : c.reason?.isSome = true ↔ c.Ignored := by
  rw [Option.isSome_iff_exists, ← not_iff_not, ← exists_render_iff, not_exists]
  simp only [← render_eq_error_iff]
  cases c.render with
  | ok f => simp
  | error reason => simp

instance (c : Condition) : Decidable c.Ignored := decidable_of_iff _ isSome_reason?_iff

end Condition

namespace Predicate

namespace Step

mutual

instance decidableIgnored : (step : Step) → Decidable step.Ignored
  | .require condition => inferInstanceAs (Decidable condition.Ignored)
  | .alternative text _ => inferInstanceAs (Decidable (Text.trim text = []))
  | .group steps => decidableIgnoredAll steps
  | .orGroup steps => decidableIgnoredAll steps
  | .onlyIf holds step =>
    have := decidableIgnored step
    inferInstanceAs (Decidable (holds = false ∨ step.Ignored))

instance decidableIgnoredAll : (steps : List Step) → Decidable (IgnoredAll steps)
  | [] => .isTrue trivial
  | step :: steps =>
    have := decidableIgnored step
    have := decidableIgnoredAll steps
    inferInstanceAs (Decidable (step.Ignored ∧ IgnoredAll steps))

end

mutual

/-- The operations of a step that leave out what they are given, in the order in which they run. -/
def leftOut : Step → List Rejection
  | .require condition => (condition.reason?.map fun reason => ⟨condition.operation, reason⟩).toList
  | .alternative text _ => if Text.trim text = [] then [⟨.or, .emptyFragment⟩] else []
  | .group steps => leftOutAll steps ++ if IgnoredAll steps then [⟨.group, .emptyGroup⟩] else []
  | .orGroup steps =>
    leftOutAll steps ++ if IgnoredAll steps then [⟨.orGroup, .emptyGroup⟩] else []
  | .onlyIf holds step => if holds then step.leftOut else []

def leftOutAll : List Step → List Rejection
  | [] => []
  | step :: steps => step.leftOut ++ leftOutAll steps

end

end Step

variable {p : Predicate}

/-- What a predicate keeps of a list of rejections. -/
def noted (p : Predicate) (rejections : List Rejection) : List Rejection :=
  if p.strict then rejections else []

theorem noted_nil (p : Predicate) : p.noted [] = [] := ite_self _

theorem noted_append (p : Predicate) (xs ys : List Rejection) :
    p.noted (xs ++ ys) = p.noted xs ++ p.noted ys := by
  unfold noted
  split <;> rfl

theorem noted_congr {q : Predicate} (h : q.strict = p.strict) (xs : List Rejection) :
    q.noted xs = p.noted xs := by rw [noted, noted, h]

theorem rejections_combineLast (p : Predicate) (alternative alone : Text) (values : List Value) :
    (p.combineLast alternative alone values).rejections = p.rejections := by
  rw [combineLast]
  split <;> rfl

theorem rejections_reject (p : Predicate) (operation : Operation) (reason : Reason) :
    (p.reject operation reason).rejections = p.rejections ++ p.noted [⟨operation, reason⟩] := by
  rw [reject, noted]
  split
  · rfl
  · exact (List.append_nil _).symm

theorem absorb_strict (p : Predicate) (operation : Operation) (group : Predicate) :
    (p.absorb operation group).strict = p.strict := by
  rw [absorb]
  dsimp only
  split
  · exact reject_strict _ _ _
  · split
    · exact combineLast_strict _ _ _ _
    · rfl

/-- A group passes its rejections on, and one without terms is rejected itself. -/
theorem rejections_absorb (p : Predicate) (operation : Operation) (group : Predicate) :
    (p.absorb operation group).rejections =
      p.rejections ++ (group.rejections ++
        p.noted (if group.terms = [] then [⟨operation, .emptyGroup⟩] else [])) := by
  rw [absorb]
  dsimp only
  by_cases h : group.terms = []
  · rw [if_pos (List.isEmpty_iff.mpr h), if_pos h, rejections_reject, List.append_assoc]
    rfl
  · rw [if_neg (mt List.isEmpty_iff.mp h), if_neg h, noted_nil, List.append_nil]
    split
    · exact rejections_combineLast _ _ _ _
    · rfl

theorem terms_applyAll_eq_nil_iff (strict : Bool) (steps : List Step) :
    ((empty strict).applyAll steps).terms = [] ↔ Step.IgnoredAll steps := by
  constructor
  · intro h
    by_contra hsteps
    exact terms_applyAll_ne_nil (empty strict) steps (Or.inr hsteps) h
  · exact fun h => (keeps_of_ignoredAll (empty strict) steps h).1

mutual

theorem strict_apply (p : Predicate) : (step : Step) → (p.apply step).strict = p.strict
  | .require condition => by
    rw [apply, require]
    split
    · rfl
    · exact reject_strict p _ _
  | .alternative text values => by
    rw [apply, alternative]
    split
    · exact reject_strict p _ _
    · exact combineLast_strict p _ _ _
  | .group steps => by
    rw [apply]
    exact absorb_strict p _ _
  | .orGroup steps => by
    rw [apply]
    exact absorb_strict p _ _
  | .onlyIf holds step => by
    rw [apply]
    split
    · exact strict_apply p step
    · rfl

theorem strict_applyAll (p : Predicate) : (steps : List Step) → (p.applyAll steps).strict = p.strict
  | [] => by rw [applyAll]
  | step :: steps => by rw [applyAll, strict_applyAll (p.apply step) steps, strict_apply p step]

end

mutual

/-- A step adds to the rejections what it leaves out, and a lenient predicate keeps none. -/
theorem rejections_apply (p : Predicate) :
    (step : Step) → (p.apply step).rejections = p.rejections ++ p.noted step.leftOut
  | .require condition => by
    rw [apply, require, Step.leftOut]
    cases hr : condition.render with
    | ok f =>
      have hnone : condition.reason? = none := by
        rw [Option.eq_none_iff_forall_ne_some]
        intro reason hreason
        rw [Condition.render_eq_error_iff.mpr hreason] at hr
        exact absurd hr (by simp)
      rw [hnone, Option.map_none, Option.toList_none, noted_nil, List.append_nil]
      rfl
    | error reason =>
      rw [Condition.render_eq_error_iff.mp hr]
      exact rejections_reject p _ _
  | .alternative text values => by
    rw [apply, alternative, Step.leftOut]
    by_cases h : Text.trim text = []
    · rw [if_pos (Text.isAllBlank_iff.mpr h), if_pos h]
      exact rejections_reject p _ _
    · rw [if_neg (mt Text.isAllBlank_iff.mp h), if_neg h, noted_nil, List.append_nil]
      exact rejections_combineLast p _ _ _
  | .group steps => by
    rw [apply, rejections_absorb, rejections_run p.strict steps, Step.leftOut, noted_append]
    simp only [terms_applyAll_eq_nil_iff]
    rfl
  | .orGroup steps => by
    rw [apply, rejections_absorb, rejections_run p.strict steps, Step.leftOut, noted_append]
    simp only [terms_applyAll_eq_nil_iff]
    rfl
  | .onlyIf holds step => by
    rw [apply, Step.leftOut]
    split
    · exact rejections_apply p step
    · rw [noted_nil, List.append_nil]

theorem rejections_applyAll (p : Predicate) : (steps : List Step) →
    (p.applyAll steps).rejections = p.rejections ++ p.noted (Step.leftOutAll steps)
  | [] => by rw [applyAll, Step.leftOutAll, noted_nil, List.append_nil]
  | step :: steps => by
    rw [applyAll, rejections_applyAll (p.apply step) steps, rejections_apply p step,
      noted_congr (strict_apply p step), Step.leftOutAll, noted_append, List.append_assoc]

theorem rejections_run (strict : Bool) (steps : List Step) :
    ((empty strict).applyAll steps).rejections = (empty strict).noted (Step.leftOutAll steps) := by
  rw [rejections_applyAll (empty strict) steps]
  rfl

end

theorem tryBuild_eq_error_iff {rejection : Rejection} :
    p.tryBuild = .error rejection ↔ p.strict = true ∧ p.rejections.head? = some rejection := by
  rw [tryBuild]
  cases p.rejections with
  | nil => simp
  | cons first rest =>
    dsimp only
    split <;> simp_all

theorem tryBuild_eq_ok (h : p.strict = true → p.rejections = []) : p.tryBuild = .ok p.build := by
  rw [tryBuild]
  cases hr : p.rejections with
  | nil => rfl
  | cons first rest =>
    rw [hr] at h
    exact if_neg fun hstrict => List.cons_ne_nil _ _ (h hstrict)

theorem tryBuild_lenient (steps : List Step) :
    ((empty false).applyAll steps).tryBuild = .ok ((empty false).applyAll steps).build :=
  tryBuild_eq_ok fun h => absurd ((strict_applyAll (empty false) steps).symm.trans h) (by decide)

theorem tryBuild_strict_iff {steps : List Step} {rejection : Rejection} :
    ((empty true).applyAll steps).tryBuild = .error rejection ↔
      (Step.leftOutAll steps).head? = some rejection := by
  rw [tryBuild_eq_error_iff, strict_applyAll, rejections_run]
  exact and_iff_right rfl

theorem render_predicate_iff {e : FilterError} :
    (Filter.predicate p).render = .error e ↔
      ∃ rejection, p.tryBuild = .error rejection ∧ e = .rejected rejection := by
  rw [Filter.render]
  cases p.tryBuild with
  | ok f => simp [Except.mapError]
  | error rejection => simp [Except.mapError, eq_comm]

theorem build_strict (steps : List Step) :
    Keeps ((empty false).applyAll steps) ((empty true).applyAll steps) ∧
      ((empty true).applyAll steps).build = ((empty false).applyAll steps).build := by
  have hstrict := Spells.applyAll (spells_empty true) steps
  have hlenient := Spells.applyAll (spells_empty false) steps
  have hterms := hstrict.terms.trans hlenient.terms.symm
  have hvalues := hstrict.values.trans hlenient.values.symm
  refine ⟨⟨hterms, hvalues⟩, ?_⟩
  rw [build, build, hterms, hvalues]

/-- What the strict predicate of some steps tells, and the lenient one does not. -/
structure Observed (steps : List Step) : Prop where
  /-- After every step both are the same but for the rejections. -/
  built : ∀ done, done <+: steps →
    Keeps ((empty false).applyAll done) ((empty true).applyAll done) ∧
      ((empty true).applyAll done).build = ((empty false).applyAll done).build
  lenient : ∀ done, done <+: steps → ((empty false).applyAll done).rejections = [] ∧
    ((empty false).applyAll done).tryBuild = .ok ((empty false).applyAll done).build
  strict : ∀ done, done <+: steps →
    ((empty true).applyAll done).rejections = Step.leftOutAll done
  /-- The first rejection stands in place of the fragment, of a filter and of every plan. -/
  tryBuild_error : ∀ rejection, ((empty true).applyAll steps).tryBuild = .error rejection ↔
    (Step.leftOutAll steps).head? = some rejection
  render_error : ∀ e, (Filter.predicate ((empty true).applyAll steps)).render = .error e ↔
    ∃ rejection, (Step.leftOutAll steps).head? = some rejection ∧ e = .rejected rejection
  plan_error : ∀ (planner : Planner) (r : Request) (e : FilterError),
    planner.plan { r with filter := .predicate ((empty true).applyAll steps) } =
        .error (.filter e) ↔
      ∃ rejection, (Step.leftOutAll steps).head? = some rejection ∧ e = .rejected rejection
  lenient_plan : ∀ (planner : Planner) (r : Request) (e : FilterError),
    planner.plan { r with filter := .predicate ((empty false).applyAll steps) } ≠
      .error (.filter e)
  /-- Without rejections it makes no difference which one is used. -/
  unnoticed : Step.leftOutAll steps = [] →
    ((empty true).applyAll steps).tryBuild = ((empty false).applyAll steps).tryBuild ∧
      (Filter.predicate ((empty true).applyAll steps)).render =
        (Filter.predicate ((empty false).applyAll steps)).render ∧
      ∀ (planner : Planner) (r : Request),
        planner.plan { r with filter := .predicate ((empty true).applyAll steps) } =
          planner.plan { r with filter := .predicate ((empty false).applyAll steps) }

/-- Strictness observes the steps without changing what they build. -/
theorem observed_applyAll (steps : List Step) : Observed steps where
  built done _ := build_strict done
  lenient done _ := ⟨rejections_run false done, tryBuild_lenient done⟩
  strict done _ := rejections_run true done
  tryBuild_error _ := tryBuild_strict_iff
  render_error e := by simp only [render_predicate_iff, tryBuild_strict_iff]
  plan_error planner r e := by
    rw [Planner.plan_eq_filter_iff]
    simp only [render_predicate_iff, tryBuild_strict_iff]
  lenient_plan planner r e h := by
    obtain ⟨rejection, hrejection, -⟩ :=
      render_predicate_iff.mp (Planner.plan_eq_filter_iff.mp h)
    rw [tryBuild_lenient] at hrejection
    exact absurd hrejection (by simp)
  unnoticed h := by
    have hsame : ((empty true).applyAll steps).tryBuild =
        ((empty false).applyAll steps).tryBuild := by
      rw [tryBuild_lenient, ← (build_strict steps).2]
      exact tryBuild_eq_ok fun _ => (rejections_run true steps).trans h
    have hrender : (Filter.predicate ((empty true).applyAll steps)).render =
        (Filter.predicate ((empty false).applyAll steps)).render := by
      rw [Filter.render, Filter.render, hsame]
    exact ⟨hsame, hrender, fun planner r => Planner.plan_congr_filter hrender r⟩

example : (Step.leftOutAll
    [.orGroup
      [.group [.require (.compare [] .eq .null)], .onlyIf false (.alternative [] [])],
    .require (.membership true "a".toList .null)]).map Rejection.message =
      ["compare ignored: empty field".toList,
        "group ignored: group produced no fragments".toList,
        "or_group ignored: group produced no fragments".toList,
        "not_in_values ignored: expected a sequence, got null".toList] := by decide

end Predicate

end PagedQuery
