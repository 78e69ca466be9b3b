import PagedQuery.Proofs.Build.Alignment

/-!
# Literals in place of values

The steps of a predicate can be given literals where they have values. Then the
predicate has no values, and its text is the one it had with the literals put in
for the placeholders from left to right: values and placeholders pass through
groups and alternatives in the same order.
-/
namespace PagedQuery

open Placeholder (Literals At count_trim isBland)
open Fragment (Aligned valueCount)

variable {tokens : List Text}

namespace Placeholder

theorem fill_parenthesized (tokens : List Text) (t : Text) :
    fill tokens (Predicate.parenthesized t) = Predicate.parenthesized (fill tokens t) := by
  have hopen : fill tokens ('(' :: (t ++ [')'])) = '(' :: fill tokens (t ++ [')']) := rfl
  rw [Predicate.parenthesized, List.cons_append, hopen, fill, fillFrom_append,
    fillFrom_of_isBland (by decide : [')'].all isBland = true)]
  rfl

theorem fill_bland_append {u : Text} (hu : u.all isBland = true) (tokens : List Text) (t : Text) :
    fill tokens (u ++ t) = u ++ fill tokens t := by
  rw [fill_append (Trace.closed_of_isBland hu), show count u = 0 from countFrom_of_isBland hu,
    List.drop_zero, show fill tokens u = u from fillFrom_of_isBland hu]

theorem fill_between {s u : Text} (hs : Quote.Closed s) (hu : u.all isBland = true)
    (tokens : List Text) (t : Text) :
    fill tokens (s ++ u ++ t) = fill tokens s ++ u ++ fill (tokens.drop (count s)) t := by
  rw [List.append_assoc, fill_append hs, fill_bland_append hu, List.append_assoc]

end Placeholder

namespace Condition

/-- What the condition adds, with literals for its placeholders. -/
def fillRendered (tokens : List Text) (c : Condition) : Condition :=
  match c.render with
  | .ok f => verbatim (Placeholder.fill tokens f.text) []
  | .error _ => c

/-- The condition with literals for its placeholders and without values: text of the caller is
filled as it was given. -/
def fill (tokens : List Text) : Condition → Condition
  | fragment text _ => fragment (Placeholder.fill tokens text) []
  | verbatim text _ => verbatim (Placeholder.fill tokens text) []
  | existence negated subquery _ => existence negated (Placeholder.fill tokens subquery) []
  | c => fillRendered tokens c

variable {c : Condition} {f : Fragment}

theorem trim_append_ne_nil {s : Text} (h : Text.trim s ≠ []) (t : Text) :
    Text.trim (s ++ t) ≠ [] := by
  rw [ne_eq, Text.trim_eq_nil_iff] at h ⊢
  rw [List.all_append, Bool.and_eq_true]
  exact fun hall => h hall.1

theorem trim_ne_nil_of_render (hr : c.render = .ok f) : Text.trim f.text ≠ [] := by
  cases rendered_of_render hr with
  | fragment values hne => rwa [Text.trim_trim]
  | verbatim values hne => exact hne
  | compare comparison value hne => exact trim_append_ne_nil hne _
  | membership negated item items hne => exact trim_append_ne_nil hne _
  | range negated low high hne => exact trim_append_ne_nil hne _
  | pattern negated hne => exact trim_append_ne_nil hne _
  | nullness negated hne => exact trim_append_ne_nil hne _
  | existence negated values =>
    refine trim_append_ne_nil (trim_append_ne_nil ?_ _) _
    cases negated <;> decide

theorem literals_count {text : Text} {values : List Value} (h : Aligned ⟨text, values⟩)
    (hl : Literals tokens 0) (hf : Text.trim text ≠ [] → Literals tokens values.length) :
    Literals tokens (Placeholder.count text) := by
  by_cases hblank : Text.trim text = []
  · rwa [← count_trim, hblank]
  · rw [h.count_eq]
    exact hf hblank

theorem render_fillRendered (h : c.Sound)
    (hf : ∀ f, c.render = .ok f → Literals tokens f.values.length) :
    (c.fillRendered tokens).render =
      c.render.map fun f => ⟨Placeholder.fill tokens f.text, []⟩ := by
  cases hr : c.render with
  | ok f =>
    have hcount : Literals tokens (Placeholder.count f.text) :=
      (aligned_of_render h hr).count_eq ▸ hf f hr
    have hblank : ¬Text.isAllBlank f.text = true :=
      fun hb => trim_ne_nil_of_render hr (Text.isAllBlank_iff.mp hb)
    rw [fillRendered, hr]
    change (verbatim (Placeholder.fill tokens f.text) []).render = _
    rw [render, Placeholder.isAllBlank_fill hcount, if_neg hblank]
    rfl
  | error reason =>
    rw [fillRendered, hr]
    exact hr

/-- It makes no difference whether a condition is filled before it is rendered or afterwards. -/
theorem render_fill (h : c.Sound) (hl : Literals tokens 0)
    (hf : ∀ f, c.render = .ok f → Literals tokens f.values.length) :
    (c.fill tokens).render = c.render.map fun f => ⟨Placeholder.fill tokens f.text, []⟩ := by
  cases c with
  | fragment text values =>
    have hcount := literals_count h hl fun hne => hf _ (ok_of_trim_iff.mpr ⟨hne, rfl⟩)
    rw [fill, render, render, Placeholder.isAllBlank_fill hcount, Placeholder.trim_fill hcount]
    split <;> rfl
  | verbatim text values =>
    have hcount := literals_count h hl fun hne => hf _ (ok_of_trim_iff.mpr ⟨hne, rfl⟩)
    rw [fill, render, render, Placeholder.isAllBlank_fill hcount]
    split <;> rfl
  | existence negated subquery values =>
    have hcount := literals_count h hl fun hne => hf _ (ok_of_trim_iff.mpr ⟨hne, rfl⟩)
    rw [fill, render, render, Placeholder.isAllBlank_fill hcount, Placeholder.trim_fill hcount]
    split
    · rfl
    · have hword : (keyword negated "EXISTS" ++ " ".toList).all isBland = true := by
        cases negated <;> decide
      have hquery := Placeholder.fill_bland_append hword tokens
        (Predicate.parenthesized (Text.trim subquery))
      rw [Placeholder.fill_parenthesized] at hquery
      simpa [Except.map, Predicate.parenthesized] using hquery.symm
  | compare field comparison value => exact render_fillRendered h hf
  | membership negated field values => exact render_fillRendered h hf
  | range negated field low high => exact render_fillRendered h hf
  | pattern negated field mask => exact render_fillRendered h hf
  | nullness negated field => exact render_fillRendered h hf

end Condition

namespace Predicate

namespace Term

mutual

def fill (tokens : List Text) : Term → Term
  | leaf condition => leaf ⟨Placeholder.fill tokens condition.text, []⟩
  | group terms => group (fillAll tokens terms)
  | either term alternative =>
    either (term.fill tokens) (fillAll (tokens.drop (valueCount term.leaves)) alternative)

def fillAll (tokens : List Text) : List Term → List Term
  | [] => []
  | t :: ts => t.fill tokens :: fillAll (tokens.drop (valueCount t.leaves)) ts

end

variable {t : Term} {ts us : List Term}

theorem isEmpty_fillAll (tokens : List Text) (ts : List Term) :
    (fillAll tokens ts).isEmpty = ts.isEmpty := by
  cases ts <;> rfl

theorem fillAll_append (tokens : List Text) (ts us : List Term) :
    fillAll tokens (ts ++ us) =
      fillAll tokens ts ++ fillAll (tokens.drop (valueCount (ts.flatMap leaves))) us := by
  induction ts generalizing tokens with
  | nil => rfl
  | cons t ts ih =>
    rw [List.cons_append, fillAll, fillAll, ih, List.flatMap_cons, Fragment.valueCount_append,
      List.drop_drop, List.cons_append]

theorem fillAll_attach (tokens : List Text) (ts alternative : List Term) (alone : Term) :
    fillAll tokens (attach ts alternative alone) =
      attach (fillAll tokens ts)
        (fillAll (tokens.drop (valueCount (ts.flatMap leaves))) alternative)
        (alone.fill (tokens.drop (valueCount (ts.flatMap leaves)))) := by
  rcases List.eq_nil_or_concat ts with rfl | ⟨ts, last, rfl⟩
  · rfl
  · rw [List.concat_eq_append, attach_concat, fillAll_append, fillAll_append, fillAll, fillAll,
      fill, fillAll, fillAll, attach_concat, List.flatMap_append, List.flatMap_singleton,
      Fragment.valueCount_append, List.drop_drop]

theorem mem_fillAll {u : Term} (hu : u ∈ fillAll tokens ts) :
    ∃ t ∈ ts, ∃ rest, u = t.fill rest := by
  induction ts generalizing tokens with
  | nil => exact absurd hu List.not_mem_nil
  | cons t ts ih =>
    rcases List.mem_cons.mp hu with rfl | hu
    · exact ⟨t, List.mem_cons_self, tokens, rfl⟩
    · obtain ⟨t', ht', hrest⟩ := ih hu
      exact ⟨t', List.mem_cons_of_mem t ht', hrest⟩

theorem values_of_mem_leaves_fill (tokens : List Text) :
    ∀ f ∈ (t.fill tokens).leaves, f.values = [] := by
  induction t generalizing tokens with
  | leaf condition =>
    intro f hf
    rw [List.mem_singleton.mp hf]
  | group ts ih =>
    intro f hf
    rw [fill, leaves_group] at hf
    obtain ⟨u, hu, hf⟩ := List.mem_flatMap.mp hf
    obtain ⟨t, ht, rest, rfl⟩ := mem_fillAll hu
    exact ih t ht rest f hf
  | either t ts iht ihts =>
    intro f hf
    rw [fill, leaves_either] at hf
    rcases List.mem_append.mp hf with hf | hf
    · exact iht tokens f hf
    · obtain ⟨u, hu, hf⟩ := List.mem_flatMap.mp hf
      obtain ⟨t, ht, rest, rfl⟩ := mem_fillAll hu
      exact ihts t ht rest f hf

theorem conjunction_fillAll
    (h : ∀ t ∈ ts, Aligned ⟨t.text, t.leaves.flatMap Fragment.values⟩ ∧
      ∀ tokens, (t.fill tokens).text = Placeholder.fill tokens t.text) (tokens : List Text) :
    conjunction ((fillAll tokens ts).map text) =
      Placeholder.fill tokens (conjunction (ts.map text)) := by
  induction ts generalizing tokens with
  | nil => rfl
  | cons t ts ih =>
    obtain ⟨haligned, ht⟩ := h t List.mem_cons_self
    have hts := ih (fun u hu => h u (List.mem_cons_of_mem t hu)) (tokens.drop (valueCount t.leaves))
    cases ts with
    | nil =>
      rw [fillAll, fillAll, List.map_singleton, List.map_singleton, conjunction_singleton,
        conjunction_singleton, ht]
    | cons u ts =>
      have hcount : Placeholder.count t.text = valueCount t.leaves := haligned.count_eq
      rw [List.map_cons, List.map_cons, conjunction_cons_cons,
        Placeholder.fill_between haligned.closed.quote (by decide), ← ht, hcount]
      rw [fillAll, List.map_cons, List.map_cons] at hts
      rw [← hts, fillAll, fillAll, List.map_cons, List.map_cons, conjunction_cons_cons]

theorem text_fill (h : ∀ f ∈ t.leaves, f.Aligned) (tokens : List Text) :
    (t.fill tokens).text = Placeholder.fill tokens t.text := by
  induction t generalizing tokens with
  | leaf condition => rfl
  | group ts ih =>
    have hts := forall_leaves_group.mp h
    rw [fill, text_group, text_group, Placeholder.fill_parenthesized,
      conjunction_fillAll fun t ht => ⟨t.woven.aligned (hts t ht), ih t ht (hts t ht)⟩]
  | either t ts iht ihts =>
    obtain ⟨ht, hts⟩ := forall_leaves_either.mp h
    have hterm := (t.woven.aligned ht).parenthesized
    have hcount : Placeholder.count (parenthesized t.text) = valueCount t.leaves := hterm.count_eq
    rw [fill, text_either, text_either, Placeholder.fill_between hterm.closed.quote (by decide),
      Placeholder.fill_parenthesized, Placeholder.fill_parenthesized, hcount, iht ht,
      conjunction_fillAll fun t ht => ⟨t.woven.aligned (hts t ht), ihts t ht (hts t ht)⟩]

end Term

namespace Step

mutual

def fill (tokens : List Text) : Step → Step
  | .require condition => .require (condition.fill tokens)
  | .alternative text _ => .alternative (Placeholder.fill tokens text) []
  | .group steps => .group (fillAll tokens steps)
  | .orGroup steps => .orGroup (fillAll tokens steps)
  | .onlyIf holds step => .onlyIf holds (step.fill tokens)

/-- The steps with literals; every step takes as many as it supplies values. -/
def fillAll (tokens : List Text) : List Step → List Step
  | [] => []
  | step :: steps =>
    step.fill tokens :: fillAll (tokens.drop (valueCount step.supplied)) steps

end

end Step

mutual

theorem Term.grow_fill {tokens : List Text} (ts : List Term) : (step : Step) →
    step.Each Condition.Sound →
    Literals (tokens.drop (valueCount (ts.flatMap leaves))) (valueCount step.supplied) →
    grow (fillAll tokens ts) (step.fill (tokens.drop (valueCount (ts.flatMap leaves)))) =
      fillAll tokens (grow ts step)
  | .require condition, h, hl => by
    generalize hrest : tokens.drop (valueCount (ts.flatMap leaves)) = rest at hl ⊢
    have hrender := Condition.render_fill h (hl.mono (Nat.zero_le _)) fun f hf => by
      rwa [Step.supplied, hf, Fragment.valueCount_singleton] at hl
    rw [Step.fill, grow, grow, hrender]
    cases condition.render with
    | ok f =>
      rw [fillAll_append, hrest]
      rfl
    | error reason => rfl
  | .alternative text values, h, hl => by
    generalize hrest : tokens.drop (valueCount (ts.flatMap leaves)) = rest at hl ⊢
    have hcount := Condition.literals_count h (hl.mono (Nat.zero_le _)) fun hne => by
      rwa [Step.supplied, if_neg fun hb => hne (Text.isAllBlank_iff.mp hb),
        Fragment.valueCount_singleton] at hl
    rw [Step.fill, grow, grow, Placeholder.isAllBlank_fill hcount, Placeholder.trim_fill hcount]
    split
    · rfl
    · rw [fillAll_attach, hrest]
      rfl
  | .group steps, h, hl => by
    generalize hrest : tokens.drop (valueCount (ts.flatMap leaves)) = rest at hl ⊢
    have hinner : growAll [] (Step.fillAll rest steps) = fillAll rest (growAll [] steps) :=
      growAll_fill [] steps h hl
    rw [Step.fill, grow, grow, hinner, isEmpty_fillAll]
    split
    · rfl
    · rw [fillAll_append, hrest]
      rfl
  | .orGroup steps, h, hl => by
    generalize hrest : tokens.drop (valueCount (ts.flatMap leaves)) = rest at hl ⊢
    have hinner : growAll [] (Step.fillAll rest steps) = fillAll rest (growAll [] steps) :=
      growAll_fill [] steps h hl
    rw [Step.fill, grow, grow, hinner, isEmpty_fillAll]
    split
    · rfl
    · rw [fillAll_attach, hrest]
      rfl
  | .onlyIf holds step, h, hl => by
    rw [Step.fill, grow, grow]
    cases holds with
    | true => exact grow_fill ts step h hl
    | false => rfl

theorem Term.growAll_fill {tokens : List Text} (ts : List Term) : (steps : List Step) →
    Step.EachAll Condition.Sound steps →
    Literals (tokens.drop (valueCount (ts.flatMap leaves))) (valueCount (Step.suppliedAll steps)) →
    growAll (fillAll tokens ts)
        (Step.fillAll (tokens.drop (valueCount (ts.flatMap leaves))) steps) =
      fillAll tokens (growAll ts steps)
  | [], _, _ => rfl
  | step :: steps, h, hl => by
    rw [Step.suppliedAll, Fragment.valueCount_append] at hl
    have hrest := hl.drop
    rw [List.drop_drop, ← Fragment.valueCount_append, ← leaves_grow] at hrest
    rw [Step.fillAll, growAll, growAll, grow_fill ts step h.1 (hl.mono (Nat.le_add_right _ _)),
      List.drop_drop, ← Fragment.valueCount_append, ← leaves_grow,
      growAll_fill (grow ts step) steps h.2 hrest]

end

end Predicate

end PagedQuery
