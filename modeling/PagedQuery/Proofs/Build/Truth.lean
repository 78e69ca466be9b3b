import PagedQuery.Proofs.Build.Alignment
import PagedQuery.Proofs.Build.Evaluation

/-!
# Truth of a predicate

The text of a predicate joins its terms with `AND`, and a term with an alternative
has an `OR` at its top level. Where `AND` binds tighter than `OR`, this `OR` parts
the whole text. So a list of terms holds when one of the stretches between two
such words does, not when each of its terms does.
-/
namespace PagedQuery

open Text (Word evaluate)

namespace Text

/-- The text is closed, and no `AND` or `OR` of its own parts it. -/
structure Unparted (t : Text) : Prop where
  closed : Place.Closed t
  free : ∀ word ∈ Keyword.connectives, ∀ i, ¬Word word t i

variable {s t : Text}

theorem unparted_of_decide
    (h : Place.Closed t ∧ ∀ word ∈ Keyword.connectives, ∀ i < t.length, ¬Word word t i) :
    Unparted t :=
  ⟨h.1, fun word hword i hi => h.2 word hword i hi.1.1 hi⟩

theorem Unparted.append (hs : Unparted s) (ht : Unparted t) (h : Apart s t) :
    Unparted (s ++ t) where
  closed := hs.closed.append ht.closed
  free word hword i hi := by
    have hcapitals := Keyword.capitals_of_mem_connectives word hword
    rcases (word_append hcapitals hs.closed.1 h).mp hi with hi | ⟨j, -, hj⟩
    · exact hs.free word hword i hi
    · exact ht.free word hword j hj

theorem unparted_parenthesized (h : Place.Closed t) : Unparted (Predicate.parenthesized t) where
  closed := h.parenthesized
  free word hword _ := not_word_parenthesized (Keyword.capitals_of_mem_connectives word hword) h

theorem Unparted.trim (h : Unparted t) : Unparted (trim t) where
  closed := h.closed.trim
  free word hword :=
    not_word_trim (Keyword.capitals_of_mem_connectives word hword) h.closed (h.free word hword)

/-- The text is a single condition, not in parentheses. -/
structure Single (t : Text) : Prop where
  ne_nil : trim t ≠ []
  unparted : Unparted t
  bare : enclosed? (trim t) = none

theorem Single.evaluate_eq (h : Single t) (truth : Text → Bool) :
    evaluate truth t = truth (trim t) := by
  have hfree := h.unparted.trim.free
  refine evaluate_of_none h.ne_nil ?_ ?_ h.bare
  · exact splitWord?_eq_none_iff.mpr (hfree _ (by decide))
  · exact splitWord?_eq_none_iff.mpr (hfree _ (by decide))

end Text

namespace Predicate

open Text (Unparted)

/-- Whether a term holds, and its alternative if it has one. -/
structure Truth where
  term : Bool
  alternative : Option Bool

namespace Truth

def whole (x : Truth) : Bool := x.term || x.alternative.getD false

/-- Every term holds, or its alternative. -/
def required (xs : List Truth) : Bool := xs.all whole

/-- Whether the terms in front of the first alternative hold, and whether what follows does. -/
def stretches : List Truth → Bool × Bool
  | [] => (true, false)
  | ⟨x, none⟩ :: xs => (x && (stretches xs).1, (stretches xs).2)
  | ⟨x, some y⟩ :: xs => (x, y && (stretches xs).1 || (stretches xs).2)

/-- The terms of one of the stretches between alternatives hold. -/
def byPrecedence (xs : List Truth) : Bool := (stretches xs).1 || (stretches xs).2

variable {x : Truth} {xs ys : List Truth}

theorem byPrecedence_append (hxs : required xs = true) (hys : byPrecedence ys = true) :
    byPrecedence (xs ++ ys) = true := by
  induction xs with
  | nil => exact hys
  | cons x xs ih =>
    rw [required, List.all_cons, Bool.and_eq_true] at hxs
    have hrest := ih hxs.2
    have hx := hxs.1
    rw [byPrecedence] at hrest
    obtain ⟨x, _ | y⟩ := x
    · obtain rfl : x = true := by simpa [whole] using hx
      simpa [byPrecedence, stretches] using hrest
    · cases x with
      | true => rfl
      | false =>
        obtain rfl : y = true := by simpa [whole] using hx
        simpa [byPrecedence, stretches] using hrest

theorem byPrecedence_singleton (x : Truth) : byPrecedence [x] = x.whole := by
  obtain ⟨x, _ | y⟩ := x <;> simp [byPrecedence, stretches, whole]

/-- Where every term holds, or its alternative, so does a stretch. -/
theorem byPrecedence_of_required (h : required xs = true) : byPrecedence xs = true := by
  have hempty : byPrecedence (xs ++ []) = true := byPrecedence_append h rfl
  rwa [List.append_nil] at hempty

/-- What follows an alternative does not depend on the terms in front of it. -/
theorem stretches_append (h : (stretches ys).2 = true) (xs : List Truth) :
    (stretches (xs ++ ys)).2 = true := by
  induction xs with
  | nil => exact h
  | cons x xs ih =>
    obtain ⟨x, _ | y⟩ := x
    · exact ih
    · rw [List.cons_append, stretches, ih, Bool.or_true]

theorem stretches_eq_required (h : ∀ x ∈ xs, x.alternative = none) :
    stretches xs = (required xs, false) := by
  induction xs with
  | nil => rfl
  | cons x xs ih =>
    obtain ⟨x, y⟩ := x
    obtain rfl : y = none := h _ List.mem_cons_self
    rw [stretches, ih fun x hx => h x (List.mem_cons_of_mem _ hx), required, required,
      List.all_cons, whole, Option.getD_none, Bool.or_false]

/-- Without an alternative beside another term it makes no difference how the terms are read. -/
theorem byPrecedence_eq_required (h : xs.length ≤ 1 ∨ ∀ x ∈ xs, x.alternative = none) :
    byPrecedence xs = required xs := by
  rcases h with h | h
  · match xs, h with
    | [], _ => rfl
    | [x], _ => rw [byPrecedence_singleton, required, List.all_cons, List.all_nil, Bool.and_true]
  · rw [byPrecedence, stretches_eq_required h, Bool.or_false]

end Truth

namespace Term

mutual

/-- The truth of a term, where `join` is the truth of a list of terms. -/
def truth (join : List Truth → Bool) (v : Text → Bool) : Term → Truth
  | leaf condition => ⟨evaluate v condition.text, none⟩
  | group terms => ⟨join (truths join v terms), none⟩
  | either term alternative => ⟨(term.truth join v).whole, some (join (truths join v alternative))⟩

def truths (join : List Truth → Bool) (v : Text → Bool) : List Term → List Truth
  | [] => []
  | t :: ts => t.truth join v :: truths join v ts

end

variable {join : List Truth → Bool} {v : Text → Bool} {t : Term} {ts : List Term}

@[simp] theorem truths_eq_map : truths join v ts = ts.map (truth join v) := by
  induction ts with
  | nil => rfl
  | cons t ts ih => rw [truths, ih, List.map_cons]

theorem truth_group : truth join v (group ts) = ⟨join (ts.map (truth join v)), none⟩ := by
  rw [truth, truths_eq_map]

theorem truth_either : truth join v (either t ts) =
    ⟨(t.truth join v).whole, some (join (ts.map (truth join v)))⟩ := by
  rw [truth, truths_eq_map]

end Term

/-- The text shows a term of the given truth: two texts around an `OR` if it has an alternative. -/
def Shows (v : Text → Bool) (t : Text) (x : Truth) : Prop :=
  match x.alternative with
  | none => Unparted t ∧ evaluate v t = x.term
  | some y => ∃ a b, t = a ++ " OR ".toList ++ b ∧ Unparted a ∧ Unparted b ∧
      evaluate v a = x.term ∧ evaluate v b = y

/-- The first `OR` parts the text into texts of the given truths, or there is none. -/
def Parts (v : Text → Bool) (t : Text) (x : Bool × Bool) : Prop :=
  ∃ c, Place.Closed c ∧ (∀ i, ¬Word Keyword.orWord c i) ∧ evaluate v c = x.1 ∧
    (t = c ∧ x.2 = false ∨
      ∃ d, Place.Closed d ∧ t = c ++ " OR ".toList ++ d ∧ evaluate v d = x.2)

variable {join : List Truth → Bool} {v : Text → Bool} {s t : Text} {x : Truth} {xs : List Truth}
  {p : Bool × Bool} {ts : List Term}

theorem Parts.closed (h : Parts v t p) : Place.Closed t := by
  obtain ⟨c, hc, -, -, ⟨rfl, -⟩ | ⟨d, hd, rfl, -⟩⟩ := h
  · exact hc
  · exact (hc.append (by decide)).append hd

theorem Parts.evaluate_eq (h : Parts v t p) : evaluate v t = (p.1 || p.2) := by
  obtain ⟨c, hc, hfree, hp, ⟨rfl, hp'⟩ | ⟨d, hd, rfl, hp'⟩⟩ := h
  · rw [hp, hp', Bool.or_false]
  · rw [Text.evaluate_or v hc hfree hd, hp, hp']

theorem orWord_mem : Keyword.orWord ∈ Keyword.connectives := by decide

theorem parts_of_unparted (h : Unparted t) : Parts v t (evaluate v t, false) :=
  ⟨t, h.closed, h.free _ orWord_mem, rfl, Or.inl ⟨rfl, rfl⟩⟩

theorem Parts.or (ht : Unparted t) (h : Parts v s p) :
    Parts v (t ++ " OR ".toList ++ s) (evaluate v t, p.1 || p.2) :=
  ⟨t, ht.closed, ht.free _ orWord_mem, rfl, Or.inr ⟨s, h.closed, rfl, h.evaluate_eq⟩⟩

theorem Parts.and (ht : Unparted t) (h : Parts v s p) :
    Parts v (t ++ " AND ".toList ++ s) (evaluate v t && p.1, p.2) := by
  obtain ⟨c, hc, hfree, hp, hs⟩ := h
  refine ⟨t ++ " AND ".toList ++ c, (ht.closed.append (by decide)).append hc,
    fun i hi => ?_, ?_, ?_⟩
  · rcases (Text.word_join_iff (by decide : Keyword.andWord ∈ Keyword.connectives) orWord_mem
      ht.closed).mp hi with hi | ⟨hne, -⟩ | ⟨j, -, hj⟩
    · exact ht.free _ orWord_mem i hi
    · exact absurd hne (by decide)
    · exact hfree j hj
  · rw [Text.evaluate_and v ht.closed ht.free hc hfree, hp]
  · rcases hs with ⟨rfl, hp'⟩ | ⟨d, hd, rfl, hp'⟩
    · exact Or.inl ⟨rfl, hp'⟩
    · exact Or.inr ⟨d, hd, by simp only [List.append_assoc], hp'⟩

theorem Shows.parts (h : Shows v t x) : Parts v t (Truth.stretches [x]) := by
  obtain ⟨x, _ | y⟩ := x
  · obtain ⟨ht, rfl⟩ := h
    rw [Truth.stretches, Truth.stretches, Bool.and_true]
    exact parts_of_unparted ht
  · obtain ⟨a, b, rfl, ha, hb, rfl, rfl⟩ := h
    rw [Truth.stretches, Truth.stretches, Bool.and_true]
    exact Parts.or ha (parts_of_unparted hb)

theorem Shows.evaluate_eq (h : Shows v t x) : evaluate v t = x.whole :=
  h.parts.evaluate_eq.trans (Truth.byPrecedence_singleton x)

theorem Shows.parts_cons (h : Shows v t x) (hs : Parts v s (Truth.stretches xs)) :
    Parts v (t ++ " AND ".toList ++ s) (Truth.stretches (x :: xs)) := by
  obtain ⟨x, _ | y⟩ := x
  · obtain ⟨ht, rfl⟩ := h
    exact Parts.and ht hs
  · obtain ⟨a, b, rfl, ha, hb, rfl, rfl⟩ := h
    have hparts := Parts.or ha (Parts.and hb hs)
    rwa [← List.append_assoc, ← List.append_assoc] at hparts

theorem parts_conjunction (hne : ts ≠ []) (h : ∀ t ∈ ts, Shows v t.text (t.truth join v)) :
    Parts v (conjunction (ts.map Term.text)) (Truth.stretches (ts.map (Term.truth join v))) := by
  induction ts with
  | nil => exact absurd rfl hne
  | cons t ts ih =>
    have ht := h t List.mem_cons_self
    cases ts with
    | nil => exact conjunction_singleton t.text ▸ ht.parts
    | cons u ts =>
      rw [List.map_cons, List.map_cons, conjunction_cons_cons, List.map_cons]
      exact ht.parts_cons (ih (List.cons_ne_nil u ts) fun w hw => h w (List.mem_cons_of_mem t hw))

theorem evaluate_conjunction (h : ∀ t ∈ ts, Shows v t.text (t.truth join v)) :
    evaluate v (conjunction (ts.map Term.text)) =
      Truth.byPrecedence (ts.map (Term.truth join v)) := by
  by_cases hne : ts = []
  · subst hne
    exact Text.evaluate_of_isAllBlank v rfl
  · exact (parts_conjunction hne h).evaluate_eq

theorem closed_conjunction (h : ∀ t ∈ ts, ∀ f ∈ t.leaves, Unparted f.text) :
    Place.Closed (conjunction (ts.map Term.text)) := by
  refine (woven_conjunction fun t (_ : t ∈ ts) => t.woven).closed fun f hf => ?_
  obtain ⟨t, ht, hf⟩ := List.mem_flatMap.mp hf
  exact (h t ht f hf).closed

theorem Term.shows {t : Term} (h : ∀ f ∈ t.leaves, Unparted f.text) :
    Shows v t.text (t.truth Truth.byPrecedence v) := by
  induction t with
  | leaf condition => exact ⟨h condition List.mem_cons_self, rfl⟩
  | group ts ih =>
    have hts := forall_leaves_group.mp h
    have hclosed := closed_conjunction hts
    rw [text_group, truth_group]
    refine ⟨Text.unparted_parenthesized hclosed, ?_⟩
    rw [Text.evaluate_parenthesized v hclosed, evaluate_conjunction fun t ht => ih t ht (hts t ht)]
  | either t ts iht ihts =>
    obtain ⟨ht, hts⟩ := forall_leaves_either.mp h
    have hclosed := t.woven.closed fun f hf => (ht f hf).closed
    have hclosed' := closed_conjunction hts
    rw [text_either, truth_either]
    refine ⟨_, _, rfl, Text.unparted_parenthesized hclosed, Text.unparted_parenthesized hclosed',
      ?_, ?_⟩
    · rw [Text.evaluate_parenthesized v hclosed, (iht ht).evaluate_eq]
    · rw [Text.evaluate_parenthesized v hclosed',
        evaluate_conjunction fun t ht => ihts t ht (hts t ht)]

/-- The text of trees whose leaves are not parted reads by precedence. -/
theorem evaluate_terms (v : Text → Bool) (h : ∀ f ∈ ts.flatMap Term.leaves, Unparted f.text) :
    evaluate v (conjunction (ts.map Term.text)) =
      Truth.byPrecedence (ts.map (Term.truth Truth.byPrecedence v)) :=
  evaluate_conjunction fun _ ht => Term.shows fun f hf => h f (List.mem_flatMap_of_mem ht hf)

end Predicate

end PagedQuery
