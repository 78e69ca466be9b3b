import PagedQuery.Proofs.Build.Separation

/-!
# Alternatives of a predicate

An alternative is joined to the last term with `OR`, and no parentheses stand
around the two. By precedence the terms in front of it, the last one included, are
one choice, and what begins with the alternative is the next. Every row for which
each term or its own alternative holds satisfies the text, but others may as well:
the two readings agree when no alternative stands beside another term, and over
different conditions in no other case.
-/
namespace PagedQuery

open Text (Unparted Single evaluate)

namespace Condition

/-- A condition without an `AND` or `OR` of its own; what is in parentheses does not matter. -/
def Atomic : Condition → Prop
  | fragment text _ | verbatim text _ => Unparted text
  | existence _ subquery _ => Place.Closed subquery
  | compare field _ _ | membership _ field _ | pattern _ field _ | nullness _ field =>
    Unparted field
  | range _ _ _ _ => False

variable {c : Condition} {f : Fragment}

theorem unparted_of_render (h : c.Atomic) (hr : c.render = .ok f) : Unparted f.text := by
  cases rendered_of_render hr with
  | fragment values => exact Unparted.trim h
  | verbatim values => exact h
  | @compare field comparison =>
    have hmark : Unparted (' ' :: (comparison.operator ++ " ?".toList)) :=
      Text.unparted_of_decide (by cases comparison <;> decide +kernel)
    exact Unparted.append h hmark (Text.apart_space field _)
  | @membership field negated item items =>
    have hword : Unparted (' ' :: (keyword negated "IN" ++ " ".toList)) :=
      Text.unparted_of_decide (by cases negated <;> decide +kernel)
    have hmarks := Text.unparted_parenthesized (aligned_questionMarks (item :: items)).closed
    exact Unparted.append h (hword.append hmarks (Text.apart_parenthesized _ _))
      (Text.apart_space field _)
  | range => exact absurd h id
  | @pattern field _ negated =>
    have hmark : Unparted (' ' :: (keyword negated "LIKE" ++ " ?".toList)) :=
      Text.unparted_of_decide (by cases negated <;> decide +kernel)
    exact Unparted.append h hmark (Text.apart_space field _)
  | @nullness field negated =>
    have htest : Unparted (' ' :: (if negated then "IS NOT NULL" else "IS NULL").toList) :=
      Text.unparted_of_decide (by cases negated <;> decide +kernel)
    cases negated <;> exact Unparted.append h htest (Text.apart_space field _)
  | existence negated =>
    have hword : Unparted (keyword negated "EXISTS" ++ " ".toList) :=
      Text.unparted_of_decide (by cases negated <;> decide +kernel)
    exact hword.append (Text.unparted_parenthesized (Place.Closed.trim h))
      (Text.apart_parenthesized _ _)

end Condition

namespace Predicate

def orLast (truths : List Bool) (alternative : Bool) : List Bool :=
  match truths.getLast? with
  | none => [alternative]
  | some last => truths.dropLast ++ [last || alternative]

namespace Step

mutual

/-- The truths of the conditions that are meant after one more step. -/
def meant (v : Text → Bool) (truths : List Bool) : Step → List Bool
  | .require condition =>
    match condition.render with
    | .ok f => truths ++ [evaluate v f.text]
    | .error _ => truths
  | .alternative text _ =>
    if Text.isAllBlank text then truths else orLast truths (evaluate v text)
  | .group steps =>
    let inner := meantAll v [] steps
    if inner.isEmpty then truths else truths ++ [inner.all id]
  | .orGroup steps =>
    let inner := meantAll v [] steps
    if inner.isEmpty then truths else orLast truths (inner.all id)
  | .onlyIf holds step => if holds then meant v truths step else truths

/-- The truths of the conditions that are meant after a list of steps. -/
def meantAll (v : Text → Bool) (truths : List Bool) : List Step → List Bool
  | [] => truths
  | step :: steps => meantAll v (meant v truths step) steps

end

/-- All conditions hold, each of them or its alternative. -/
def intended (v : Text → Bool) (steps : List Step) : Bool := (meantAll v [] steps).all id

end Step

namespace Term

/-- Whether the term or its alternative is meant to hold. -/
def meant (v : Text → Bool) (t : Term) : Bool := (t.truth Truth.required v).whole

variable {v : Text → Bool} {t : Term} {ts : List Term}

theorem meant_leaf (f : Fragment) : meant v (leaf f) = evaluate v f.text := Bool.or_false _

theorem required_truths :
    Truth.required (ts.map (truth Truth.required v)) = (ts.map (meant v)).all id := by
  rw [Truth.required, List.all_map, List.all_map]
  rfl

theorem meant_group : meant v (group ts) = (ts.map (meant v)).all id := by
  rw [meant, truth_group, required_truths]
  exact Bool.or_false _

theorem meant_either : meant v (either t ts) = (meant v t || (ts.map (meant v)).all id) := by
  rw [meant, truth_either, required_truths]
  rfl

theorem map_attach (ts alternative : List Term) {alone : Term}
    (halone : meant v alone = (alternative.map (meant v)).all id) :
    (attach ts alternative alone).map (meant v) = orLast (ts.map (meant v)) (meant v alone) := by
  rcases List.eq_nil_or_concat ts with rfl | ⟨ts, last, rfl⟩
  · rfl
  · rw [List.concat_eq_append, attach_concat, List.map_append, List.map_append, List.map_singleton,
      List.map_singleton, orLast, List.getLast?_concat, List.dropLast_concat, meant_either, halone]

end Term

mutual

/-- The trees after a step have the truths that are meant. -/
theorem Step.meant_grow (v : Text → Bool) (ts : List Term) : (step : Step) →
    step.meant v (ts.map (Term.meant v)) = (Term.grow ts step).map (Term.meant v)
  | .require condition => by
    rw [meant, Term.grow]
    cases condition.render with
    | ok f => rw [List.map_append, List.map_singleton, Term.meant_leaf]
    | error reason => rfl
  | .alternative text values => by
    rw [meant, Term.grow]
    split
    · rfl
    · rw [Term.map_attach, Term.meant_leaf, Text.evaluate_trim]
      exact (Bool.and_true _).symm
  | .group steps => by
    have hinner := meantAll_growAll v [] steps
    rw [List.map_nil] at hinner
    rw [meant, Term.grow, hinner, List.isEmpty_map]
    split
    · rfl
    · rw [List.map_append, List.map_singleton, Term.meant_group]
  | .orGroup steps => by
    have hinner := meantAll_growAll v [] steps
    rw [List.map_nil] at hinner
    rw [meant, Term.grow, hinner, List.isEmpty_map]
    split
    · rfl
    · rw [Term.map_attach _ _ Term.meant_group, Term.meant_group]
  | .onlyIf holds step => by
    rw [meant, Term.grow]
    split
    · exact meant_grow v ts step
    · rfl

theorem Step.meantAll_growAll (v : Text → Bool) (ts : List Term) : (steps : List Step) →
    meantAll v (ts.map (Term.meant v)) steps = (Term.growAll ts steps).map (Term.meant v)
  | [] => rfl
  | step :: steps => by
    rw [meantAll, Term.growAll, meant_grow, meantAll_growAll]

end

theorem Step.intended_eq (v : Text → Bool) (steps : List Step) :
    intended v steps =
      Truth.required ((Term.growAll [] steps).map (Term.truth Truth.required v)) := by
  rw [Term.required_truths, ← meantAll_growAll]
  rfl

namespace Term

variable {ts alternative : List Term} {alone : Term}

theorem levelsEach_concat (hts : LevelsEach (· ≠ []) ts) (halone : alone.Levels (· ≠ [])) :
    LevelsEach (· ≠ []) (ts ++ [alone]) := by
  rw [levelsEach_iff] at hts ⊢
  intro t ht
  rcases List.mem_append.mp ht with ht | ht
  · exact hts t ht
  · rwa [List.mem_singleton.mp ht]

theorem levelsEach_attach (hts : LevelsEach (· ≠ []) ts) (hne : alternative ≠ [])
    (halternative : LevelsEach (· ≠ []) alternative) (halone : alone.Levels (· ≠ [])) :
    LevelsEach (· ≠ []) (attach ts alternative alone) := by
  rcases List.eq_nil_or_concat ts with rfl | ⟨ts, last, rfl⟩
  · exact levelsEach_concat hts halone
  · rw [List.concat_eq_append, levelsEach_iff] at hts
    have hfront : LevelsEach (· ≠ []) ts :=
      levelsEach_iff.mpr fun t ht => hts t (List.mem_append_left _ ht)
    have hlast := hts last (List.mem_append_right _ List.mem_cons_self)
    rw [List.concat_eq_append, attach_concat]
    exact levelsEach_concat hfront ⟨hlast, hne, halternative⟩

mutual

theorem levelsEach_grow (ts : List Term) (hts : LevelsEach (· ≠ []) ts) : (step : Step) →
    LevelsEach (· ≠ []) (grow ts step)
  | .require condition => by
    rw [grow]
    split
    · exact levelsEach_concat hts trivial
    · exact hts
  | .alternative text values => by
    rw [grow]
    split
    · exact hts
    · exact levelsEach_attach hts (List.cons_ne_nil _ _) ⟨trivial, trivial⟩ trivial
  | .group steps => by
    have hinner := levelsEach_growAll [] trivial steps
    rw [grow]
    split
    · exact hts
    · rename_i hne
      exact levelsEach_concat hts ⟨mt List.isEmpty_iff.mpr hne, hinner⟩
  | .orGroup steps => by
    have hinner := levelsEach_growAll [] trivial steps
    rw [grow]
    split
    · exact hts
    · rename_i hne
      have hne' := mt List.isEmpty_iff.mpr hne
      exact levelsEach_attach hts hne' hinner ⟨hne', hinner⟩
  | .onlyIf holds step => by
    rw [grow]
    split
    · exact levelsEach_grow ts hts step
    · exact hts

theorem levelsEach_growAll (ts : List Term) (hts : LevelsEach (· ≠ []) ts) : (steps : List Step) →
    LevelsEach (· ≠ []) (growAll ts steps)
  | [] => hts
  | step :: steps => by
    rw [growAll]
    exact levelsEach_growAll _ (levelsEach_grow ts hts step) steps

end

end Term

/-- The conditions that are supplied are single and different, blanks at their ends apart. -/
structure Distinct (steps : List Step) : Prop where
  single : ∀ f ∈ Step.suppliedAll steps, Single f.text
  nodup : ((Step.suppliedAll steps).map fun f => Text.trim f.text).Nodup

/-- What the text of a predicate says after the given steps, and what is meant. -/
structure Alternatives (steps : List Step) (text : Text) : Prop where
  /-- A level holds when all terms of one of its stretches do. A stretch ends with a term that has
  an alternative, and the next one begins with the alternative. -/
  value : ∀ v, evaluate v text =
    Truth.byPrecedence ((Term.growAll [] steps).map (Term.truth Truth.byPrecedence v))
  /-- The rows that are meant satisfy the text. -/
  sound : ∀ v, Step.intended v steps = true → evaluate v text = true
  /-- No others do when no alternative stands beside another term. -/
  exact : Term.LevelsAll Term.Alone (Term.growAll [] steps) →
    ∀ v, evaluate v text = Step.intended v steps
  /-- If the conditions are different, others do in all other cases. -/
  alone : Distinct steps → (∀ v, evaluate v text = Step.intended v steps) →
    Term.LevelsAll Term.Alone (Term.growAll [] steps)

theorem evaluate_build (strict : Bool) {steps : List Step}
    (h : Step.EachAll Condition.Atomic steps) (v : Text → Bool) :
    evaluate v ((empty strict).applyAll steps).build.text =
      Truth.byPrecedence ((Term.growAll [] steps).map (Term.truth Truth.byPrecedence v)) := by
  have hspells := Spells.applyAll (spells_empty strict) steps
  rw [build, hspells.terms]
  refine evaluate_terms v ?_
  rw [Term.leaves_growAll, List.flatMap_nil, List.nil_append]
  exact Step.of_mem_suppliedAll (fun _ _ => Condition.unparted_of_render) steps h

/-- Over atomic conditions the text of a predicate reads by precedence. It admits every row that
is meant, and, where the conditions are different, no other row exactly when no alternative
stands beside another term. -/
theorem alternatives_of_atomic (strict : Bool) {steps : List Step}
    (h : Step.EachAll Condition.Atomic steps) :
    Alternatives steps ((empty strict).applyAll steps).build.text := by
  have hread := evaluate_build strict h
  have hleaves := Term.leaves_growAll [] steps
  have hfull := Term.levelsEach_growAll [] trivial steps
  have hmeant := fun v => Step.intended_eq v steps
  rw [List.flatMap_nil, List.nil_append] at hleaves
  constructor
  case value => exact hread
  case sound =>
    intro v hv
    rw [hread]
    exact Term.byPrecedence_of_required (hmeant v ▸ hv)
  case exact =>
    intro hlevels v
    rw [hread, hmeant, Term.byPrecedence_eq_required hlevels]
  case alone =>
    intro hdistinct hall
    have hkeys : (Term.growAll [] steps).flatMap Term.keys =
        (Step.suppliedAll steps).map fun f => Text.trim f.text := by
      rw [← hleaves, List.map_flatMap]
      rfl
    refine Term.levelsAll_of_agree (fun t ht f hf => ?_) hfull (hkeys ▸ hdistinct.nodup) fun v => ?_
    · exact hdistinct.single f (hleaves ▸ List.mem_flatMap_of_mem ht hf)
    · rw [← hread, ← hmeant, hall]

def sample (name : String) : Fragment := ⟨name.toList, []⟩

theorem single_sample : ∀ name ∈ ["a = 1", "b = 2", "c = 3"], Single (sample name).text := by
  have h : ∀ name ∈ ["a = 1", "b = 2", "c = 3"], Text.trim name.toList ≠ [] ∧
      (Place.Closed name.toList ∧ ∀ word ∈ Keyword.connectives,
        ∀ i < name.toList.length, ¬Text.Word word name.toList i) ∧
      Text.enclosed? (Text.trim name.toList) = none := by decide +kernel
  exact fun name hname => ⟨(h name hname).1, Text.unparted_of_decide (h name hname).2.1,
    (h name hname).2.2⟩

/-- An alternative in a group of its own. -/
def groupedSteps : List Step :=
  [.require (.fragment "a = 1".toList []),
    .group [.require (.fragment "b = 2".toList []), .alternative "c = 3".toList []]]

theorem growAll_groupedSteps : Term.growAll [] groupedSteps =
    [.leaf (sample "a = 1"),
      .group [.either (.leaf (sample "b = 2")) [.leaf (sample "c = 3")]]] := by
  rfl

theorem alternatives_of_atomic_grouped :
    Step.EachAll Condition.Atomic groupedSteps ∧ Distinct groupedSteps ∧
      Term.LevelsAll Term.Alone (Term.growAll [] groupedSteps) ∧
      ∀ v, evaluate v ((empty false).applyAll groupedSteps).build.text =
        Step.intended v groupedSteps := by
  have ha := single_sample "a = 1" (by decide)
  have hb := single_sample "b = 2" (by decide)
  have hc := single_sample "c = 3" (by decide)
  have hatomic : Step.EachAll Condition.Atomic groupedSteps :=
    ⟨ha.unparted, ⟨hb.unparted, hc.unparted, trivial⟩, trivial⟩
  have hlevels : Term.LevelsAll Term.Alone (Term.growAll [] groupedSteps) := by
    rw [growAll_groupedSteps]
    exact ⟨by decide, trivial, ⟨by decide, ⟨trivial, by decide, trivial, trivial⟩, trivial⟩,
      trivial⟩
  have hsupplied : Step.suppliedAll groupedSteps = ["a = 1", "b = 2", "c = 3"].map sample := by rfl
  have hdistinct : Distinct groupedSteps := by
    constructor
    · intro f hf
      obtain ⟨name, hname, rfl⟩ := List.mem_map.mp (hsupplied ▸ hf)
      exact single_sample name hname
    · rw [hsupplied]
      decide
  exact ⟨hatomic, hdistinct, hlevels, (alternatives_of_atomic false hatomic).exact hlevels⟩

/-- An alternative behind two conditions. -/
def lastSteps : List Step :=
  [.require (.fragment "a = 1".toList []), .require (.fragment "b = 2".toList []),
    .alternative "c = 3".toList []]

/-- A row that satisfies the alternative only is not meant, for it fails the first condition. -/
theorem not_intended_last : Step.EachAll Condition.Atomic lastSteps ∧
    ∃ v : Text → Bool, v "a = 1".toList = false ∧ Step.intended v lastSteps = false ∧
      evaluate v ((empty false).applyAll lastSteps).build.text = true := by
  have ha := single_sample "a = 1" (by decide)
  have hb := single_sample "b = 2" (by decide)
  have hc := single_sample "c = 3" (by decide)
  have hatomic : Step.EachAll Condition.Atomic lastSteps :=
    ⟨ha.unparted, hb.unparted, hc.unparted, trivial⟩
  have hgrow : Term.growAll [] lastSteps =
      [.leaf (sample "a = 1"), .either (.leaf (sample "b = 2")) [.leaf (sample "c = 3")]] := by rfl
  let v : Text → Bool := fun t => t = "c = 3".toList
  have hva : evaluate v (sample "a = 1").text = false := (ha.evaluate_eq v).trans (by decide)
  have hvb : evaluate v (sample "b = 2").text = false := (hb.evaluate_eq v).trans (by decide)
  have hvc : evaluate v (sample "c = 3").text = true := (hc.evaluate_eq v).trans (by decide)
  refine ⟨hatomic, v, by decide, ?_, ?_⟩
  · rw [Step.intended_eq, hgrow]
    simp [Term.truth, Term.truths, Truth.required, Truth.whole, hva]
  · rw [evaluate_build false hatomic, hgrow]
    simp [Term.truth, Term.truths, Truth.byPrecedence, Truth.stretches, Truth.whole, hva, hvb, hvc]

end Predicate

end PagedQuery
