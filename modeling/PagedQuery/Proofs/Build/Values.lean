import PagedQuery.Proofs.Build.Filling

/-!
# Every step accounts for its values

After every step of a predicate its text is closed and has a placeholder for each
value, and the step that supplied a value is the one in whose text the placeholder
of this value stands. A step that has nothing to add leaves terms and values as
they are, and no other step does.
-/
namespace PagedQuery

open Placeholder (At Literals)
open Fragment (Aligned valueCount)

namespace Condition

/-- There is nothing to add. -/
def Ignored : Condition → Prop
  | fragment text _ | verbatim text _ | existence _ text _ => Text.trim text = []
  | compare field _ _ | range _ field _ _ | nullness _ field => Text.trim field = []
  | membership _ field values =>
    Text.trim field = [] ∨ ∀ item items, values ≠ .array (item :: items)
  | pattern _ field mask => Text.trim field = [] ∨ mask = []

variable {c : Condition} {f : Fragment}

theorem exists_render_iff : (∃ f, c.render = .ok f) ↔ ¬c.Ignored := by
  cases c with
  | fragment text values => simp [render, Ignored, ok_of_trim_iff]
  | verbatim text values => simp [render, Ignored, ok_of_trim_iff]
  | compare field comparison value => simp [render, Ignored, onField_eq_ok_iff]
  | membership negated field values =>
    simp only [render, Ignored, onField_eq_ok_iff, exists_and_left, not_or]
    refine and_congr_right fun _ => ?_
    split
    · simp
    · rename_i items hne
      obtain ⟨item, items, rfl⟩ := List.exists_cons_of_ne_nil hne
      simp
    · rename_i hne
      exact iff_of_false (by simp) (not_not.mpr fun item items h => hne _ h)
  | range negated field low high => simp [render, Ignored, onField_eq_ok_iff]
  | pattern negated field mask =>
    cases mask <;> simp [render, Ignored, onField_eq_ok_iff]
  | nullness negated field => simp [render, Ignored, onField_eq_ok_iff]
  | existence negated text values => simp [render, Ignored, ok_of_trim_iff]

end Condition

namespace Predicate

namespace Step

mutual

def Ignored : Step → Prop
  | .require condition => condition.Ignored
  | .alternative text _ => Text.trim text = []
  | .group steps => IgnoredAll steps
  | .orGroup steps => IgnoredAll steps
  | .onlyIf holds step => holds = false ∨ step.Ignored

def IgnoredAll : List Step → Prop
  | [] => True
  | step :: steps => step.Ignored ∧ IgnoredAll steps

end

end Step

def Keeps (p q : Predicate) : Prop := q.terms = p.terms ∧ q.values = p.values

def Adds (p q : Predicate) : Prop := q.terms ≠ p.terms ∧ q.terms ≠ []

variable {p : Predicate}

theorem keeps_reject (p : Predicate) (operation : Operation) (reason : Reason) :
    Keeps p (p.reject operation reason) :=
  ⟨reject_terms p operation reason, reject_values p operation reason⟩

theorem adds_push (p : Predicate) (f : Fragment) : Adds p (p.push f) := by
  constructor
  · intro h
    have := congrArg List.length h
    rw [push, List.length_append] at this
    exact absurd this (Nat.succ_ne_self _)
  · exact List.concat_ne_nil _ _

theorem adds_combineLast (p : Predicate) (alternative alone : Text) (values : List Value) :
    Adds p (p.combineLast alternative alone values) := by
  rw [combineLast]
  split
  · exact adds_push p _
  · rename_i last hlast
    refine ⟨fun h => ?_, List.concat_ne_nil _ _⟩
    have hsame := congrArg List.getLast? h
    rw [List.getLast?_concat, hlast, Option.some.injEq] at hsame
    have := congrArg List.length hsame
    rw [parenthesized, List.cons_append, List.length_append, List.length_append, List.length_cons,
      List.length_append] at this
    omega

theorem keeps_absorb (operation : Operation) {group : Predicate} (h : group.terms = []) :
    Keeps p (p.absorb operation group) := by
  rw [absorb, h]
  exact keeps_reject { p with rejections := p.rejections ++ group.rejections } _ _

theorem adds_absorb (operation : Operation) {group : Predicate} (h : group.terms ≠ []) :
    Adds p (p.absorb operation group) := by
  rw [absorb]
  dsimp only
  rw [if_neg (mt List.isEmpty_iff.mp h)]
  split
  · exact adds_combineLast { p with rejections := p.rejections ++ group.rejections } _ _ _
  · exact adds_push { p with rejections := p.rejections ++ group.rejections } _

mutual

theorem keeps_of_ignored (p : Predicate) : (step : Step) → step.Ignored → Keeps p (p.apply step)
  | .require condition, h => by
    rw [apply, require]
    split
    · rename_i f hf
      exact absurd h (Condition.exists_render_iff.mp ⟨f, hf⟩)
    · exact keeps_reject p _ _
  | .alternative text values, h => by
    rw [apply, alternative, if_pos (Text.isAllBlank_iff.mpr h)]
    exact keeps_reject p _ _
  | .group steps, h => by
    rw [apply]
    exact keeps_absorb _ (keeps_of_ignoredAll (empty p.strict) steps h).1
  | .orGroup steps, h => by
    rw [apply]
    exact keeps_absorb _ (keeps_of_ignoredAll (empty p.strict) steps h).1
  | .onlyIf holds step, h => by
    rw [apply]
    split
    · rename_i hholds
      exact keeps_of_ignored p step (h.resolve_left fun hf => absurd hholds (by simp [hf]))
    · exact ⟨rfl, rfl⟩

theorem keeps_of_ignoredAll (p : Predicate) : (steps : List Step) → Step.IgnoredAll steps →
    Keeps p (p.applyAll steps)
  | [], _ => by
    rw [applyAll]
    exact ⟨rfl, rfl⟩
  | step :: steps, h => by
    obtain ⟨hterms, hvalues⟩ := keeps_of_ignored p step h.1
    obtain ⟨hterms', hvalues'⟩ := keeps_of_ignoredAll (p.apply step) steps h.2
    rw [applyAll]
    exact ⟨hterms'.trans hterms, hvalues'.trans hvalues⟩

end

mutual

theorem adds_of_not_ignored (p : Predicate) : (step : Step) → ¬step.Ignored →
    Adds p (p.apply step)
  | .require condition, h => by
    obtain ⟨f, hf⟩ := Condition.exists_render_iff.mpr h
    rw [apply, require, hf]
    exact adds_push p f
  | .alternative text values, h => by
    rw [apply, alternative, if_neg (mt Text.isAllBlank_iff.mp h)]
    exact adds_combineLast p _ _ _
  | .group steps, h => by
    rw [apply]
    exact adds_absorb _ (terms_applyAll_ne_nil (empty p.strict) steps (Or.inr h))
  | .orGroup steps, h => by
    rw [apply]
    exact adds_absorb _ (terms_applyAll_ne_nil (empty p.strict) steps (Or.inr h))
  | .onlyIf holds step, h => by
    obtain ⟨hholds, hstep⟩ := not_or.mp h
    rw [apply, if_pos (Bool.not_eq_false _ ▸ hholds)]
    exact adds_of_not_ignored p step hstep

theorem terms_applyAll_ne_nil (p : Predicate) : (steps : List Step) →
    p.terms ≠ [] ∨ ¬Step.IgnoredAll steps → (p.applyAll steps).terms ≠ []
  | [], h => by
    rw [applyAll]
    exact h.resolve_right (not_not.mpr trivial)
  | step :: steps, h => by
    rw [applyAll]
    refine terms_applyAll_ne_nil (p.apply step) steps ?_
    by_cases hstep : step.Ignored
    · rw [(keeps_of_ignored p step hstep).1]
      exact h.imp_right fun hall hsteps => hall ⟨hstep, hsteps⟩
    · exact Or.inl (adds_of_not_ignored p step hstep).2

end

/-- A step leaves the terms as they are exactly when it has nothing to add. -/
theorem terms_apply_eq_iff (p : Predicate) (step : Step) :
    (p.apply step).terms = p.terms ↔ step.Ignored := by
  constructor
  · intro h
    by_contra hstep
    exact (adds_of_not_ignored p step hstep).1 h
  · exact fun h => (keeps_of_ignored p step h).1

theorem text_build {ts : List Term} (h : Spells p ts) :
    p.build.text = conjunction (ts.map Term.text) := by rw [build, h.terms]

/-- After sound steps literals can be put into the steps or into what is built. -/
theorem build_fillAll (strict : Bool) (tokens : List Text) {steps : List Step}
    (h : Step.EachAll Condition.Sound steps)
    (hl : Literals tokens (valueCount (Step.suppliedAll steps))) :
    ((empty strict).applyAll (Step.fillAll tokens steps)).build =
      ⟨Placeholder.fill tokens (conjunction ((Term.growAll [] steps).map Term.text)), []⟩ := by
  have hgrow : Term.growAll [] (Step.fillAll tokens steps) =
      Term.fillAll tokens (Term.growAll [] steps) := Term.growAll_fill [] steps h hl
  have hspells := Spells.applyAll (spells_empty strict) (Step.fillAll tokens steps)
  rw [hgrow] at hspells
  have haligned : ∀ t ∈ Term.growAll [] steps, ∀ f ∈ t.leaves, f.Aligned := by
    intro t ht f hf
    have hmem := List.mem_flatMap_of_mem ht hf
    rw [Term.leaves_growAll, List.flatMap_nil, List.nil_append] at hmem
    exact Step.of_mem_suppliedAll (fun _ _ => Condition.aligned_of_render) steps h f hmem
  have hvalues : ((Term.fillAll tokens (Term.growAll [] steps)).flatMap Term.leaves).flatMap
      Fragment.values = [] := by
    refine List.flatMap_eq_nil_iff.mpr fun f hf => ?_
    obtain ⟨u, hu, hf⟩ := List.mem_flatMap.mp hf
    obtain ⟨t, -, rest, rfl⟩ := Term.mem_fillAll hu
    exact Term.values_of_mem_leaves_fill rest f hf
  rw [build, hspells.terms, hspells.values, hvalues,
    Term.conjunction_fillAll fun t ht =>
      ⟨t.woven.aligned (haligned t ht), Term.text_fill (haligned t ht)⟩]

/-- What a predicate is after the given steps. -/
structure Accounted (steps : List Step) (p : Predicate) : Prop where
  /-- The text is closed and has a placeholder for each value. -/
  closed : Place.Closed p.build.text
  count_eq : Placeholder.count p.build.text = p.build.values.length
  /-- A value was supplied by the step in whose text its placeholder stands. -/
  filled : ∀ k value, p.build.values[k]? = some value →
    Filled (Step.suppliedAll steps) p.build.text k value
  /-- Literals can be put into the steps or into the text. -/
  literals : ∀ strict tokens, Literals tokens p.build.values.length →
    ((empty strict).applyAll (Step.fillAll tokens steps)).build =
      ⟨Placeholder.fill tokens p.build.text, []⟩
  terms_ne_nil : p.values ≠ [] → p.terms ≠ []
  /-- Just the steps that have nothing to add leave everything as it is. -/
  ignored : ∀ step, ((p.apply step).terms = p.terms ↔ step.Ignored) ∧
    (step.Ignored → (p.apply step).values = p.values)

theorem accounted_applyAll (strict : Bool) {steps : List Step}
    (h : Step.EachAll Condition.Sound steps) :
    Accounted steps ((empty strict).applyAll steps) := by
  have hspells := Spells.applyAll (spells_empty strict) steps
  have hfill := fun strict tokens => build_fillAll strict tokens h
  have hleaves : (Term.growAll [] steps).flatMap Term.leaves = Step.suppliedAll steps := by
    rw [Term.leaves_growAll, List.flatMap_nil, List.nil_append]
  have haligned : ∀ f ∈ Step.suppliedAll steps, f.Aligned :=
    Step.of_mem_suppliedAll (fun _ _ => Condition.aligned_of_render) steps h
  generalize (empty strict).applyAll steps = p at hspells ⊢
  generalize Term.growAll [] steps = ts at hspells hleaves hfill
  have htext := text_build hspells
  have hvalues : p.values = (Step.suppliedAll steps).flatMap Fragment.values :=
    hleaves ▸ hspells.values
  have hwoven := woven_conjunction fun t (_ : t ∈ ts) => t.woven
  rw [← htext, hleaves] at hwoven
  have hbuilt := hwoven.aligned haligned
  rw [← hvalues] at hbuilt
  constructor
  case closed => exact hbuilt.closed
  case count_eq => exact hbuilt.count_eq
  case filled =>
    intro k value hk
    exact hwoven.filled haligned (hvalues ▸ hk)
  case literals =>
    intro strict tokens hl
    have hlength : p.build.values.length = valueCount (Step.suppliedAll steps) :=
      congrArg List.length hvalues
    rw [htext, hfill strict tokens (hlength ▸ hl)]
  case terms_ne_nil =>
    intro hne hnil
    rw [hspells.terms, List.map_eq_nil_iff] at hnil
    exact hne (hspells.values.trans (by rw [hnil]; rfl))
  case ignored =>
    intro step
    exact ⟨terms_apply_eq_iff p step, fun hstep => (keeps_of_ignored p step hstep).2⟩

/-- After every one of a list of sound steps the predicate accounts for its values. -/
theorem accounted_after_steps (strict : Bool) {steps done : List Step}
    (h : Step.EachAll Condition.Sound steps) (hdone : done <+: steps) :
    Accounted done ((empty strict).applyAll done) := by
  obtain ⟨rest, rfl⟩ := hdone
  exact accounted_applyAll strict (Step.eachAll_append.mp h).1

def memberSteps : List Step :=
  [.require (.compare "age".toList .gte (.text "18".toList)),
    .orGroup [.require (.membership false "role".toList (.array [.text ['a'], .text ['b']])),
      .alternative " tag = '?' AND name = ? ".toList [.text ['n']]],
    .onlyIf false (.require (.nullness true "email".toList)),
    .require (.existence true "SELECT 1 FROM bans WHERE who = ?".toList [.text ['w']])]

theorem accounted_after_steps_members :
    (Step.EachAll Condition.Sound memberSteps ∧ memberSteps <+: memberSteps) ∧
      Accounted memberSteps ((empty true).applyAll memberSteps) ∧
      ((empty true).applyAll memberSteps).build.text =
        "(age >= ?) OR ((role IN (?, ?)) OR (tag = '?' AND name = ?))".toList ++
          " AND NOT EXISTS (SELECT 1 FROM bans WHERE who = ?)".toList := by
  have hsound : Step.EachAll Condition.Sound memberSteps :=
    ⟨Fragment.aligned_of_closed 0 (by decide) rfl,
      ⟨Fragment.aligned_of_closed 0 (by decide) rfl,
        Fragment.aligned_of_closed 1 (by decide) rfl, trivial⟩,
      Fragment.aligned_of_closed 0 (by decide) rfl,
      Fragment.aligned_of_closed 1 (by decide) rfl, trivial⟩
  exact ⟨⟨hsound, List.prefix_rfl⟩, accounted_after_steps true hsound List.prefix_rfl, by decide⟩

end Predicate

end PagedQuery
