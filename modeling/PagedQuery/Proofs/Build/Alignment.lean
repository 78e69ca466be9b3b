import PagedQuery.Proofs.Build.Terms
import PagedQuery.Proofs.Substitution

/-!
# Values of a predicate

An alternative rewrites the last term and a group becomes one term, while values
are only added at the end. Still the values of a predicate stand in the order of
its placeholders: the text of a tree is made of the texts of its conditions from
left to right, with nothing but keywords and parentheses between them, and the
steps of a predicate supply its conditions in this order.
-/
namespace PagedQuery

open Placeholder (At Literals isBland)

namespace Fragment

/-- The text is closed and has a placeholder for each value. -/
structure Aligned (f : Fragment) : Prop where
  closed : Place.Closed f.text
  count_eq : Placeholder.count f.text = f.values.length

def valueCount (fs : List Fragment) : Nat := (fs.flatMap values).length

variable {f : Fragment} {fs gs : List Fragment} {s t : Text} {vs ws : List Value}

@[simp] theorem valueCount_nil : valueCount [] = 0 := rfl

theorem valueCount_singleton (f : Fragment) : valueCount [f] = f.values.length := by
  rw [valueCount, List.flatMap_singleton]

theorem valueCount_append (fs gs : List Fragment) :
    valueCount (fs ++ gs) = valueCount fs + valueCount gs := by
  rw [valueCount, List.flatMap_append, List.length_append, ← valueCount, ← valueCount]

theorem aligned_of_closed (n : Nat) (h : Place.Closed t ∧ Placeholder.count t = n)
    (hvs : vs.length = n) : Aligned ⟨t, vs⟩ :=
  ⟨h.1, h.2.trans hvs.symm⟩

theorem Aligned.append (hs : Aligned ⟨s, vs⟩) (ht : Aligned ⟨t, ws⟩) :
    Aligned ⟨s ++ t, vs ++ ws⟩ where
  closed := hs.closed.append ht.closed
  count_eq := by
    rw [Placeholder.count_append hs.closed.quote, hs.count_eq, ht.count_eq, List.length_append]

theorem Aligned.parenthesized (h : Aligned ⟨t, vs⟩) : Aligned ⟨Predicate.parenthesized t, vs⟩ where
  closed := h.closed.parenthesized
  count_eq := by
    have hopen : Quote.Closed ['('] := by decide
    rw [Predicate.parenthesized, ← List.singleton_append, List.append_assoc,
      Placeholder.count_append hopen, Placeholder.count_append h.closed.quote, h.count_eq]
    exact Nat.zero_add _

theorem Aligned.trim (h : Aligned ⟨t, vs⟩) : Aligned ⟨Text.trim t, vs⟩ :=
  ⟨h.closed.trim, (Placeholder.count_trim t).trans h.count_eq⟩

end Fragment

namespace Condition

open Fragment (Aligned aligned_of_closed)

theorem questionMarks_succ (n : Nat) :
    questionMarks (n + 2) = "?, ".toList ++ questionMarks (n + 1) := by
  rw [questionMarks, List.replicate_succ, List.replicate_succ, List.intercalate_cons_cons]
  rfl

theorem aligned_questionMarks (vs : List Value) : Aligned ⟨questionMarks vs.length, vs⟩ := by
  match vs with
  | [] => exact aligned_of_closed 0 (by decide) rfl
  | [_] => exact aligned_of_closed (t := ['?']) 1 (by decide) rfl
  | v :: w :: vs =>
    rw [List.length_cons, List.length_cons, questionMarks_succ]
    have hmark : Aligned ⟨"?, ".toList, [v]⟩ := aligned_of_closed 1 (by decide) rfl
    exact hmark.append (aligned_questionMarks (w :: vs))

/-- Text of the caller has as many placeholders as values are given with it, a field has none. -/
def Sound : Condition → Prop
  | fragment text values | verbatim text values | existence _ text values => Aligned ⟨text, values⟩
  | compare field _ _ | membership _ field _ | range _ field _ _ | pattern _ field _
  | nullness _ field => Aligned ⟨field, []⟩

variable {c : Condition} {f : Fragment}

theorem onField_eq_ok_iff {field : Text} {rendered : Except Reason Fragment} :
    onField field rendered = .ok f ↔ Text.trim field ≠ [] ∧ rendered = .ok f := by
  rw [onField, ne_eq, ← Text.isAllBlank_iff]
  split <;> simp_all

theorem ok_of_trim_iff {text : Text} {reason : Reason} {g : Fragment} :
    (if Text.isAllBlank text then .error reason else .ok g : Except Reason Fragment) = .ok f ↔
      Text.trim text ≠ [] ∧ g = f := by
  rw [ne_eq, ← Text.isAllBlank_iff]
  split <;> simp_all

/-- The forms of what conditions add. -/
inductive Rendered : Condition → Fragment → Prop
  | fragment {text : Text} (values : List Value) (hne : Text.trim text ≠ []) :
      Rendered (.fragment text values) ⟨Text.trim text, values⟩
  | verbatim {text : Text} (values : List Value) (hne : Text.trim text ≠ []) :
      Rendered (.verbatim text values) ⟨text, values⟩
  | compare {field : Text} (comparison : Comparison) (value : Value)
      (hne : Text.trim field ≠ []) :
      Rendered (.compare field comparison value)
        ⟨field ++ (' ' :: comparison.operator ++ " ?".toList), [value]⟩
  | membership {field : Text} (negated : Bool) (item : Value) (items : List Value)
      (hne : Text.trim field ≠ []) :
      Rendered (.membership negated field (.array (item :: items)))
        ⟨field ++ (' ' :: keyword negated "IN" ++ " ".toList ++
          Predicate.parenthesized (questionMarks (items.length + 1))), item :: items⟩
  | range {field : Text} (negated : Bool) (low high : Value) (hne : Text.trim field ≠ []) :
      Rendered (.range negated field low high)
        ⟨field ++ (' ' :: keyword negated "BETWEEN" ++ " ? AND ?".toList), [low, high]⟩
  | pattern {field mask : Text} (negated : Bool) (hne : Text.trim field ≠ []) (hmask : mask ≠ []) :
      Rendered (.pattern negated field mask)
        ⟨field ++ (' ' :: keyword negated "LIKE" ++ " ?".toList), [.text mask]⟩
  | nullness {field : Text} (negated : Bool) (hne : Text.trim field ≠ []) :
      Rendered (.nullness negated field)
        ⟨field ++ (if negated then " IS NOT NULL" else " IS NULL").toList, []⟩
  | existence {subquery : Text} (negated : Bool) (values : List Value)
      (hne : Text.trim subquery ≠ []) :
      Rendered (.existence negated subquery values)
        ⟨keyword negated "EXISTS" ++ " ".toList ++ Predicate.parenthesized (Text.trim subquery),
          values⟩

theorem rendered_of_render (hr : c.render = .ok f) : c.Rendered f := by
  cases c with
  | fragment text values =>
    obtain ⟨hne, rfl⟩ := ok_of_trim_iff.mp hr
    exact .fragment values hne
  | verbatim text values =>
    obtain ⟨hne, rfl⟩ := ok_of_trim_iff.mp hr
    exact .verbatim values hne
  | compare field comparison value =>
    obtain ⟨hne, ⟨⟩⟩ := onField_eq_ok_iff.mp hr
    rw [List.append_assoc]
    exact .compare comparison value hne
  | membership negated field values =>
    obtain ⟨hne, hr⟩ := onField_eq_ok_iff.mp hr
    split at hr
    · exact absurd hr (by simp)
    · rename_i items hitems _
      obtain rfl := Except.ok.inj hr
      obtain ⟨item, items, rfl⟩ := List.exists_cons_of_ne_nil hitems
      simpa [Predicate.parenthesized] using Rendered.membership negated item items hne
    · exact absurd hr (by simp)
  | range negated field low high =>
    obtain ⟨hne, ⟨⟩⟩ := onField_eq_ok_iff.mp hr
    rw [List.append_assoc]
    exact .range negated low high hne
  | pattern negated field mask =>
    obtain ⟨hne, hr⟩ := onField_eq_ok_iff.mp hr
    split at hr
    · exact absurd hr (by simp)
    · rename_i hmask
      obtain rfl := Except.ok.inj hr
      rw [List.append_assoc]
      exact .pattern negated hne (mt List.isEmpty_iff.mpr hmask)
  | nullness negated field =>
    obtain ⟨hne, ⟨⟩⟩ := onField_eq_ok_iff.mp hr
    exact .nullness negated hne
  | existence negated subquery values =>
    obtain ⟨hne, rfl⟩ := ok_of_trim_iff.mp hr
    simpa [Predicate.parenthesized] using Rendered.existence negated values hne

theorem aligned_of_render (h : c.Sound) (hr : c.render = .ok f) : f.Aligned := by
  cases rendered_of_render hr with
  | fragment values => exact Aligned.trim h
  | verbatim values => exact h
  | compare comparison value =>
    have hmark : Aligned ⟨' ' :: comparison.operator ++ " ?".toList, [value]⟩ :=
      aligned_of_closed 1 (by cases comparison <;> decide) rfl
    exact Aligned.append h hmark
  | membership negated item items =>
    have hword : Aligned ⟨' ' :: keyword negated "IN" ++ " ".toList, []⟩ :=
      aligned_of_closed 0 (by cases negated <;> decide) rfl
    exact Aligned.append h (hword.append (aligned_questionMarks (item :: items)).parenthesized)
  | range negated low high =>
    have hmarks : Aligned ⟨' ' :: keyword negated "BETWEEN" ++ " ? AND ?".toList, [low, high]⟩ :=
      aligned_of_closed 2 (by cases negated <;> decide) rfl
    exact Aligned.append h hmarks
  | @pattern _ mask negated =>
    have hmark : Aligned ⟨' ' :: keyword negated "LIKE" ++ " ?".toList, [.text mask]⟩ :=
      aligned_of_closed 1 (by cases negated <;> decide) rfl
    exact Aligned.append h hmark
  | nullness negated =>
    have htest : Aligned ⟨(if negated then " IS NOT NULL" else " IS NULL").toList, []⟩ :=
      aligned_of_closed 0 (by cases negated <;> decide) rfl
    exact Aligned.append h htest
  | existence negated values =>
    have hword : Aligned ⟨keyword negated "EXISTS" ++ " ".toList, []⟩ :=
      aligned_of_closed 0 (by cases negated <;> decide) rfl
    exact hword.append (Aligned.trim h).parenthesized

end Condition

namespace Predicate

open Fragment (Aligned valueCount aligned_of_closed)

variable {ts : List Term} {fs gs : List Fragment} {s t text : Text} {k : Nat}
  {value : Value}

/-- The text is made of the texts of the fragments in their order, with nothing but bland text and
parentheses in pairs between them. -/
inductive Woven : List Fragment → Text → Prop
  | glue {text : Text} (hbland : text.all isBland = true) (hplain : text.all Text.isPlain = true) :
      Woven [] text
  | fragment (f : Fragment) : Woven [f] f.text
  | parenthesized {fs : List Fragment} {s : Text} (hs : Woven fs s) : Woven fs (parenthesized s)
  | append {fs gs : List Fragment} {s t : Text} (hs : Woven fs s) (ht : Woven gs t) :
      Woven (fs ++ gs) (s ++ t)

theorem woven_conjunction (h : ∀ t ∈ ts, Woven t.leaves t.text) :
    Woven (ts.flatMap Term.leaves) (conjunction (ts.map Term.text)) := by
  induction ts with
  | nil => exact .glue rfl rfl
  | cons t ts ih =>
    have ht := h t List.mem_cons_self
    have hts := ih fun u hu => h u (List.mem_cons_of_mem t hu)
    rw [List.flatMap_cons]
    cases ts with
    | nil =>
      rw [List.map_singleton, conjunction_singleton]
      exact (List.append_nil _).symm ▸ ht
    | cons u ts =>
      rw [List.map_cons, List.map_cons, conjunction_cons_cons, ← List.append_nil t.leaves]
      exact (ht.append (.glue (by decide) (by decide))).append hts

theorem Term.woven (t : Term) : Woven t.leaves t.text := by
  induction t with
  | leaf condition => exact .fragment condition
  | group ts ih =>
    rw [text_group, leaves_group]
    exact (woven_conjunction ih).parenthesized
  | either t ts iht ihts =>
    rw [text_either, leaves_either, ← List.append_nil t.leaves]
    exact (iht.parenthesized.append (.glue (by decide) (by decide))).append
      (woven_conjunction ihts).parenthesized

theorem Woven.closed (h : Woven fs text) (hfs : ∀ f ∈ fs, Place.Closed f.text) :
    Place.Closed text := by
  induction h with
  | glue _ hplain => exact Place.closed_of_isPlain hplain
  | fragment f => exact hfs f List.mem_cons_self
  | parenthesized _ ih => exact (ih hfs).parenthesized
  | append _ _ ihs iht =>
    obtain ⟨hleft, hright⟩ := List.forall_mem_append.mp hfs
    exact (ihs hleft).append (iht hright)

theorem Woven.aligned (h : Woven fs text) (hfs : ∀ f ∈ fs, f.Aligned) :
    Aligned ⟨text, fs.flatMap Fragment.values⟩ := by
  induction h with
  | glue hbland hplain =>
    exact ⟨Place.closed_of_isPlain hplain, Placeholder.countFrom_of_isBland hbland⟩
  | fragment f =>
    rw [List.flatMap_singleton]
    exact hfs f List.mem_cons_self
  | parenthesized _ ih => exact (ih hfs).parenthesized
  | append _ _ ihs iht =>
    obtain ⟨hleft, hright⟩ := List.forall_mem_append.mp hfs
    rw [List.flatMap_append]
    exact (ihs hleft).append (iht hright)

/-- The value number `k` is one of a fragment, and it has the same place among the values of this
fragment as the placeholder number `k` of the text has in the fragment's text. -/
def Filled (fs : List Fragment) (text : Text) (k : Nat) (value : Value) : Prop :=
  ∃ before f behind, fs = before ++ f :: behind ∧ ∃ u v, text = u ++ f.text ++ v ∧
    ∃ i j, k = valueCount before + j ∧ f.values[j]? = some value ∧ At f.text j i ∧
      At text k (u.length + i)

theorem Filled.append (h : Filled fs s k value) (gs : List Fragment) (t : Text) :
    Filled (fs ++ gs) (s ++ t) k value := by
  obtain ⟨before, f, behind, rfl, u, v, rfl, i, j, hk, hj, hf, hs⟩ := h
  refine ⟨before, f, behind ++ gs, ?_, u, v ++ t, ?_, i, j, hk, hj, hf, hs.append t⟩
  · rw [List.append_assoc, List.cons_append]
  · rw [List.append_assoc]

theorem Filled.append_right (h : Filled gs t k value) (hs : Quote.Closed s)
    (hcount : Placeholder.count s = valueCount fs) :
    Filled (fs ++ gs) (s ++ t) (valueCount fs + k) value := by
  obtain ⟨before, f, behind, rfl, u, v, rfl, i, j, hk, hj, hf, ht⟩ := h
  refine ⟨fs ++ before, f, behind, ?_, s ++ u, v, ?_, i, j, ?_, hj, hf, ?_⟩
  · rw [List.append_assoc]
  · rw [List.append_assoc, List.append_assoc, List.append_assoc]
  · rw [Fragment.valueCount_append, hk, Nat.add_assoc]
  · rw [List.length_append, Nat.add_assoc, ← hcount]
    exact ht.append_right hs

/-- In a woven text of aligned fragments every value belongs to the placeholder of its number. -/
theorem Woven.filled (h : Woven fs text) (hfs : ∀ f ∈ fs, f.Aligned) :
    (fs.flatMap Fragment.values)[k]? = some value → Filled fs text k value := by
  induction h generalizing k with
  | glue => exact fun hk => absurd hk (by simp)
  | fragment f =>
    intro hk
    rw [List.flatMap_singleton] at hk
    have hlt : k < Placeholder.count f.text :=
      (hfs f List.mem_cons_self).count_eq ▸ (List.getElem?_eq_some_iff.mp hk).1
    obtain ⟨i, hi⟩ := Placeholder.exists_at hlt
    refine ⟨[], f, [], rfl, [], [], (List.append_nil _).symm, i, k, (Nat.zero_add k).symm, hk, hi,
      ?_⟩
    rw [List.length_nil, Nat.zero_add]
    exact hi
  | @parenthesized fs s _ ih =>
    intro hk
    have hopen : Quote.Closed ['('] := by decide
    have hfront : Filled ([] ++ fs) (['('] ++ s) (valueCount [] + k) value :=
      (ih hfs hk).append_right hopen rfl
    have hinner := hfront.append [] [')']
    rwa [List.nil_append, List.append_nil, Fragment.valueCount_nil, Nat.zero_add] at hinner
  | @append fs gs s t hs _ ihs iht =>
    intro hk
    obtain ⟨hleft, hright⟩ := List.forall_mem_append.mp hfs
    rw [List.flatMap_append] at hk
    rcases Nat.lt_or_ge k (valueCount fs) with hlt | hge
    · rw [List.getElem?_append_left hlt] at hk
      exact (ihs hleft hk).append gs t
    · obtain ⟨k, rfl⟩ := Nat.exists_eq_add_of_le hge
      rw [valueCount, List.getElem?_append_right (Nat.le_add_right _ _),
        Nat.add_sub_cancel_left] at hk
      obtain ⟨hclosed, hcount⟩ := hs.aligned hleft
      exact (iht hright hk).append_right hclosed.quote hcount

namespace Step

mutual

/-- The conditions that a step supplies, in their order. -/
def supplied : Step → List Fragment
  | .require condition =>
    match condition.render with
    | .ok f => [f]
    | .error _ => []
  | .alternative text values => if Text.isAllBlank text then [] else [⟨Text.trim text, values⟩]
  | .group steps => suppliedAll steps
  | .orGroup steps => suppliedAll steps
  | .onlyIf holds step => if holds then step.supplied else []

def suppliedAll : List Step → List Fragment
  | [] => []
  | step :: steps => step.supplied ++ suppliedAll steps

end

mutual

/-- The conditions of a step have the property, whether they are added or not. -/
def Each (P : Condition → Prop) : Step → Prop
  | .require condition => P condition
  | .alternative text values => P (.fragment text values)
  | .group steps => EachAll P steps
  | .orGroup steps => EachAll P steps
  | .onlyIf _ step => step.Each P

def EachAll (P : Condition → Prop) : List Step → Prop
  | [] => True
  | step :: steps => step.Each P ∧ EachAll P steps

end

theorem eachAll_append {P : Condition → Prop} {xs ys : List Step} :
    EachAll P (xs ++ ys) ↔ EachAll P xs ∧ EachAll P ys := by
  induction xs with
  | nil => exact ⟨fun h => ⟨trivial, h⟩, fun h => h.2⟩
  | cons x xs ih => rw [List.cons_append, EachAll, EachAll, ih, and_assoc]

section

variable {P : Condition → Prop} {Q : Fragment → Prop}

mutual

theorem of_mem_supplied (hPQ : ∀ c f, P c → c.render = .ok f → Q f) : (step : Step) →
    step.Each P → ∀ f ∈ step.supplied, Q f
  | .require condition, h => by
    intro f hf
    rw [supplied] at hf
    split at hf
    · rename_i g hg
      rw [List.mem_singleton.mp hf]
      exact hPQ condition g h hg
    · exact absurd hf List.not_mem_nil
  | .alternative text values, h => by
    intro f hf
    rw [supplied] at hf
    split at hf
    · exact absurd hf List.not_mem_nil
    · rename_i hne
      rw [List.mem_singleton.mp hf]
      exact hPQ _ _ h (if_neg hne)
  | .group steps, h => of_mem_suppliedAll hPQ steps h
  | .orGroup steps, h => of_mem_suppliedAll hPQ steps h
  | .onlyIf holds step, h => by
    rw [supplied]
    split
    · exact of_mem_supplied hPQ step h
    · exact fun f hf => absurd hf List.not_mem_nil

theorem of_mem_suppliedAll (hPQ : ∀ c f, P c → c.render = .ok f → Q f) : (steps : List Step) →
    EachAll P steps → ∀ f ∈ suppliedAll steps, Q f
  | [], _ => fun f hf => absurd hf List.not_mem_nil
  | step :: steps, h => by
    intro f hf
    rcases List.mem_append.mp hf with hf | hf
    · exact of_mem_supplied hPQ step h.1 f hf
    · exact of_mem_suppliedAll hPQ steps h.2 f hf

end

end

end Step

mutual

theorem Term.leaves_grow (ts : List Term) : (step : Step) →
    (grow ts step).flatMap leaves = ts.flatMap leaves ++ step.supplied
  | .require condition => by
    rw [grow, Step.supplied]
    cases condition.render with
    | ok f => exact List.flatMap_append
    | error reason => exact (List.append_nil _).symm
  | .alternative text values => by
    rw [grow, Step.supplied]
    split
    · exact (List.append_nil _).symm
    · exact leaves_attach ts _ rfl
  | .group steps => by
    have hinner := leaves_growAll [] steps
    rw [List.flatMap_nil, List.nil_append] at hinner
    rw [grow, Step.supplied, ← hinner]
    split
    · rename_i hempty
      rw [List.isEmpty_iff.mp hempty, List.flatMap_nil, List.append_nil]
    · rw [List.flatMap_append, List.flatMap_singleton, leaves_group]
  | .orGroup steps => by
    have hinner := leaves_growAll [] steps
    rw [List.flatMap_nil, List.nil_append] at hinner
    rw [grow, Step.supplied, ← hinner]
    split
    · rename_i hempty
      rw [List.isEmpty_iff.mp hempty, List.flatMap_nil, List.append_nil]
    · exact leaves_attach ts _ (leaves_group _)
  | .onlyIf holds step => by
    rw [grow, Step.supplied]
    split
    · exact leaves_grow ts step
    · exact (List.append_nil _).symm

theorem Term.leaves_growAll (ts : List Term) : (steps : List Step) →
    (growAll ts steps).flatMap leaves = ts.flatMap leaves ++ Step.suppliedAll steps
  | [] => by
    rw [growAll, Step.suppliedAll, List.append_nil]
  | step :: steps => by
    rw [growAll, leaves_growAll, leaves_grow, Step.suppliedAll, List.append_assoc]

end

end Predicate

end PagedQuery
