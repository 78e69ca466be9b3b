import Mathlib.Tactic.Common
import PagedQuery.Build.Predicate

/-!
# Terms of a predicate

A predicate keeps the texts of its terms. Here the terms are trees: a condition
is a leaf, a group is a node over its terms, and a term with an alternative is a
node over the two. Running the steps on trees and spelling the trees is running
the steps on a predicate, so what holds of the texts of a predicate follows by
induction over trees.
-/
namespace PagedQuery.Predicate

inductive Term where
  | leaf (condition : Fragment)
  | group (terms : List Term)
  | either (term : Term) (alternative : List Term)

namespace Term

@[elab_as_elim, induction_eliminator]
theorem induction {motive : Term → Prop} (leaf : ∀ condition, motive (leaf condition))
    (group : ∀ terms, (∀ t ∈ terms, motive t) → motive (group terms))
    (either : ∀ term alternative, motive term → (∀ t ∈ alternative, motive t) →
      motive (either term alternative)) (t : Term) : motive t := by
  refine @Term.rec motive (fun terms => ∀ t ∈ terms, motive t) leaf group either ?_ ?_ t
  · intro t ht
    exact absurd ht List.not_mem_nil
  · intro t terms ht hterms u hu
    rcases List.mem_cons.mp hu with rfl | hu
    · exact ht
    · exact hterms u hu

mutual

def text : Term → Text
  | leaf condition => condition.text
  | group terms => parenthesized (conjunction (texts terms))
  | either term alternative =>
    parenthesized term.text ++ " OR ".toList ++ parenthesized (conjunction (texts alternative))

def texts : List Term → List Text
  | [] => []
  | t :: ts => t.text :: texts ts

end

mutual

/-- The conditions of a term, from left to right. -/
def leaves : Term → List Fragment
  | leaf condition => [condition]
  | group terms => leavesAll terms
  | either term alternative => term.leaves ++ leavesAll alternative

def leavesAll : List Term → List Fragment
  | [] => []
  | t :: ts => t.leaves ++ leavesAll ts

end

@[simp] theorem texts_eq_map (ts : List Term) : texts ts = ts.map text := by
  induction ts with
  | nil => rfl
  | cons t ts ih => rw [texts, ih, List.map_cons]

@[simp] theorem leavesAll_eq_flatMap (ts : List Term) : leavesAll ts = ts.flatMap leaves := by
  induction ts with
  | nil => rfl
  | cons t ts ih => rw [leavesAll, ih, List.flatMap_cons]

theorem text_group (ts : List Term) :
    text (group ts) = parenthesized (conjunction (ts.map text)) := by rw [text, texts_eq_map]

theorem text_either (t : Term) (ts : List Term) : text (either t ts) =
    parenthesized t.text ++ " OR ".toList ++ parenthesized (conjunction (ts.map text)) := by
  rw [text, texts_eq_map]

theorem leaves_group (ts : List Term) : leaves (group ts) = ts.flatMap leaves := by
  rw [leaves, leavesAll_eq_flatMap]

theorem leaves_either (t : Term) (ts : List Term) :
    leaves (either t ts) = t.leaves ++ ts.flatMap leaves := by rw [leaves, leavesAll_eq_flatMap]

section

variable {P : Fragment → Prop} {t : Term} {ts : List Term}

theorem forall_leaves_group :
    (∀ f ∈ leaves (group ts), P f) ↔ ∀ t ∈ ts, ∀ f ∈ t.leaves, P f := by
  rw [leaves_group]
  simp only [List.mem_flatMap]
  exact ⟨fun h t ht f hf => h f ⟨t, ht, hf⟩, fun h f ⟨t, ht, hf⟩ => h t ht f hf⟩

theorem forall_leaves_either : (∀ f ∈ leaves (either t ts), P f) ↔
    (∀ f ∈ t.leaves, P f) ∧ ∀ t ∈ ts, ∀ f ∈ t.leaves, P f := by
  rw [← forall_leaves_group, leaves_either, leaves_group]
  exact List.forall_mem_append

end

/-- The last term gets an alternative; without one the alternative is given by `alone`. -/
def attach (ts alternative : List Term) (alone : Term) : List Term :=
  match ts.getLast? with
  | none => [alone]
  | some last => ts.dropLast ++ [.either last alternative]

mutual

/-- The terms after one step. -/
def grow (ts : List Term) : Step → List Term
  | .require condition =>
    match condition.render with
    | .ok f => ts ++ [.leaf f]
    | .error _ => ts
  | .alternative text values =>
    if Text.isAllBlank text then ts
    else attach ts [.leaf ⟨Text.trim text, values⟩] (.leaf ⟨Text.trim text, values⟩)
  | .group steps =>
    let inner := growAll [] steps
    if inner.isEmpty then ts else ts ++ [.group inner]
  | .orGroup steps =>
    let inner := growAll [] steps
    if inner.isEmpty then ts else attach ts inner (.group inner)
  | .onlyIf holds step => if holds then grow ts step else ts

def growAll (ts : List Term) : List Step → List Term
  | [] => ts
  | step :: steps => growAll (grow ts step) steps

end

theorem attach_nil (alternative : List Term) (alone : Term) :
    attach [] alternative alone = [alone] := rfl

theorem attach_concat (ts alternative : List Term) (last alone : Term) :
    attach (ts ++ [last]) alternative alone = ts ++ [.either last alternative] := by
  rw [attach, List.getLast?_concat, List.dropLast_concat]

theorem leaves_attach (ts alternative : List Term) {alone : Term}
    (halone : alone.leaves = alternative.flatMap leaves) :
    (attach ts alternative alone).flatMap leaves =
      ts.flatMap leaves ++ alternative.flatMap leaves := by
  rcases List.eq_nil_or_concat ts with rfl | ⟨ts, last, rfl⟩
  · rw [attach_nil, List.flatMap_singleton, halone]
    rfl
  · rw [List.concat_eq_append, attach_concat, List.flatMap_append, List.flatMap_append,
      List.flatMap_singleton, List.flatMap_singleton, leaves_either, List.append_assoc]

end Term

theorem conjunction_singleton (t : Text) : conjunction [t] = t := by
  rw [conjunction, List.intercalate_singleton]

theorem conjunction_cons_cons (s t : Text) (terms : List Text) :
    conjunction (s :: t :: terms) = s ++ " AND ".toList ++ conjunction (t :: terms) := by
  rw [conjunction, List.intercalate_cons_cons, ← conjunction]

/-- The predicate has the texts of the terms and the values of their conditions. -/
structure Spells (p : Predicate) (ts : List Term) : Prop where
  terms : p.terms = ts.map Term.text
  values : p.values = (ts.flatMap Term.leaves).flatMap Fragment.values

variable {p : Predicate} {ts : List Term}

theorem Spells.isEmpty_terms (h : Spells p ts) : p.terms.isEmpty = ts.isEmpty := by
  rw [h.terms, List.isEmpty_map]

theorem spells_empty (strict : Bool) : Spells (empty strict) [] := ⟨rfl, rfl⟩

theorem Spells.push (h : Spells p ts) {t : Term} {f : Fragment} (htext : f.text = t.text)
    (hvalues : f.values = t.leaves.flatMap Fragment.values) : Spells (p.push f) (ts ++ [t]) where
  terms := by
    rw [List.map_append, List.map_singleton, ← h.terms, ← htext]
    rfl
  values := by
    rw [List.flatMap_append, List.flatMap_singleton, List.flatMap_append, ← h.values, ← hvalues]
    rfl

theorem Spells.reject (h : Spells p ts) (operation : Operation) (reason : Reason) :
    Spells (p.reject operation reason) ts where
  terms := (reject_terms p operation reason).trans h.terms
  values := (reject_values p operation reason).trans h.values

theorem Spells.withRejections (h : Spells p ts) (rejections : List Rejection) :
    Spells { p with rejections } ts := ⟨h.terms, h.values⟩

theorem Spells.combineLast (h : Spells p ts) {alternative : List Term} {alone : Term}
    {body text : Text} {values : List Value}
    (hbody : body = parenthesized (conjunction (alternative.map Term.text)))
    (htext : text = alone.text)
    (hvalues : values = (alternative.flatMap Term.leaves).flatMap Fragment.values)
    (halone : alone.leaves = alternative.flatMap Term.leaves) :
    Spells (p.combineLast body text values) (Term.attach ts alternative alone) := by
  rcases List.eq_nil_or_concat ts with rfl | ⟨ts, last, rfl⟩
  · have hlast : p.terms.getLast? = none := by rw [h.terms]; rfl
    rw [Predicate.combineLast, hlast, Term.attach_nil]
    exact h.push htext (hvalues.trans (by rw [halone]))
  · rw [List.concat_eq_append] at h ⊢
    have hterms := h.terms
    rw [List.map_append, List.map_singleton] at hterms
    have hlast : p.terms.getLast? = some last.text := by rw [hterms, List.getLast?_concat]
    rw [Predicate.combineLast, hlast]
    constructor
    · rw [hterms, List.dropLast_concat, Term.attach_concat, List.map_append, List.map_singleton,
        Term.text_either, hbody]
    · rw [Term.leaves_attach _ _ halone, List.flatMap_append, ← h.values, ← hvalues]

mutual

/-- A step does to a predicate what it does to the trees of its terms. -/
theorem Spells.apply {p : Predicate} {ts : List Term} (h : Spells p ts) :
    (step : Step) → Spells (p.apply step) (Term.grow ts step)
  | .require condition => by
    rw [Predicate.apply, Predicate.require, Term.grow]
    cases condition.render with
    | ok f => exact h.push rfl (List.append_nil _).symm
    | error reason => exact h.reject _ reason
  | .alternative text values => by
    rw [Predicate.apply, Predicate.alternative, Term.grow]
    split
    · exact h.reject _ _
    · exact h.combineLast (by rw [List.map_singleton, conjunction_singleton]; rfl) rfl
        (List.append_nil _).symm rfl
  | .group steps => by
    have hinner := Spells.applyAll (spells_empty p.strict) steps
    have hp := h.withRejections (p.rejections ++ ((empty p.strict).applyAll steps).rejections)
    rw [Predicate.apply, Predicate.absorb, Term.grow]
    dsimp only
    rw [hinner.isEmpty_terms]
    split
    · exact hp.reject _ _
    · rw [if_neg (by decide), hinner.terms]
      exact hp.push (Term.text_group _).symm (by rw [Term.leaves_group, hinner.values])
  | .orGroup steps => by
    have hinner := Spells.applyAll (spells_empty p.strict) steps
    have hp := h.withRejections (p.rejections ++ ((empty p.strict).applyAll steps).rejections)
    rw [Predicate.apply, Predicate.absorb, Term.grow]
    dsimp only
    rw [hinner.isEmpty_terms]
    split
    · exact hp.reject _ _
    · rw [if_pos rfl, hinner.terms]
      exact hp.combineLast rfl (Term.text_group _).symm hinner.values (Term.leaves_group _)
  | .onlyIf holds step => by
    rw [Predicate.apply, Term.grow]
    cases holds with
    | true => exact Spells.apply h step
    | false => exact h

theorem Spells.applyAll {p : Predicate} {ts : List Term} (h : Spells p ts) :
    (steps : List Step) → Spells (p.applyAll steps) (Term.growAll ts steps)
  | [] => by
    rw [Predicate.applyAll, Term.growAll]
    exact h
  | step :: steps => by
    rw [Predicate.applyAll, Term.growAll]
    exact Spells.applyAll (Spells.apply h step) steps

end

end PagedQuery.Predicate
