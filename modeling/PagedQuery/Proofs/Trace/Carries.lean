import PagedQuery.Proofs.Lexical.Seam
import PagedQuery.Proofs.Numbering
import PagedQuery.Proofs.Trace.Basic

/-!
# What a trace carries

A trace carries a list of origins when these are the origins of its placeholders
in order, its quotes are closed and it has no number of its own in the style of
the dialect. Joining traces joins what they carry, cutting one at the top level
cuts it, and trimming or bland text in front changes nothing.
-/
namespace PagedQuery.Trace

open Placeholder (Breaks isBland isSpacer)

/-- The placeholders of the trace are those with the given origins, and nothing else in it is
numbered. -/
structure Carries (style : PlaceholderStyle) (m : Trace) (origins : List Origin) : Prop where
  closed : Quote.Closed m.text
  placeholders : m.placeholders = origins.map some
  unnumbered : Placeholder.highest style m.text = 0

variable {style : PlaceholderStyle} {m n u : Trace} {origins more : List Origin}

theorem placeholdersFrom_append (q : Quote) (m n : Trace) :
    placeholdersFrom q (m ++ n) = placeholdersFrom q m ++ placeholdersFrom (q.after m.text) n := by
  induction m generalizing q with
  | nil => rfl
  | cons x m ih =>
    rw [List.cons_append, placeholdersFrom, placeholdersFrom, ih, List.append_assoc]
    rfl

theorem length_placeholdersFrom (q : Quote) (m : Trace) :
    (placeholdersFrom q m).length = Placeholder.countFrom q m.text := by
  induction m generalizing q with
  | nil => rfl
  | cons x m ih =>
    have htext : text (x :: m) = x.char :: text m := rfl
    rw [placeholdersFrom, List.length_append, ih, htext, Placeholder.countFrom]
    split <;> simp

theorem length_placeholders (m : Trace) : m.placeholders.length = Placeholder.count m.text :=
  length_placeholdersFrom .outside m

theorem Carries.count (h : Carries style m origins) :
    Placeholder.count m.text = origins.length := by
  rw [← length_placeholders, h.placeholders, List.length_map]

theorem placeholders_append (hm : Quote.Closed m.text) (n : Trace) :
    placeholders (m ++ n) = placeholders m ++ placeholders n := by
  rw [placeholders, placeholdersFrom_append, show Quote.after .outside m.text = .outside from hm]
  rfl

theorem Carries.append (hm : Carries style m origins) (hn : Carries style n more)
    (hbreak : Breaks n.text) : Carries style (m ++ n) (origins ++ more) where
  closed := by
    rw [text_append]
    exact hm.closed.append hn.closed
  placeholders := by
    rw [placeholders_append hm.closed, hm.placeholders, hn.placeholders, List.map_append]
  unnumbered := by
    rw [text_append, Placeholder.highest_append_eq_zero_iff hm.closed hbreak]
    exact ⟨hm.unnumbered, hn.unnumbered⟩

/-- What a trace carries is divided where it is cut outside quotes. -/
theorem Carries.of_append (h : Carries style (m ++ n) origins) (hm : Quote.Closed m.text)
    (hbreak : Breaks n.text) :
    Carries style m (origins.take (Placeholder.count m.text)) ∧
      Carries style n (origins.drop (Placeholder.count m.text)) := by
  obtain ⟨hc, hp, hu⟩ := h
  rw [text_append] at hc hu
  rw [Quote.closed_append_iff hm] at hc
  rw [Placeholder.highest_append_eq_zero_iff hm hbreak] at hu
  rw [placeholders_append hm] at hp
  have htake := congrArg (List.take m.placeholders.length) hp
  have hdrop := congrArg (List.drop m.placeholders.length) hp
  rw [List.take_left, length_placeholders, ← List.map_take] at htake
  rw [List.drop_left, length_placeholders, ← List.map_drop] at hdrop
  exact ⟨⟨hm, htake, hu.1⟩, ⟨hc, hdrop, hu.2⟩⟩

theorem placeholdersFrom_of_isBland (h : u.text.all isBland = true) (q : Quote) :
    placeholdersFrom q u = [] := by
  induction u generalizing q with
  | nil => rfl
  | cons x u ih =>
    have htext : text (x :: u) = x.char :: text u := rfl
    rw [htext, List.all_cons, Bool.and_eq_true] at h
    have hne : x.char ≠ '?' := by
      rintro e
      exact absurd (e ▸ h.1) (by decide)
    rw [placeholdersFrom, ih h.2, if_neg (fun e => hne e.2)]
    rfl

theorem closed_of_isBland {t : Text} (h : t.all isBland = true) : Quote.Closed t :=
  Placeholder.after_of_isBland h .outside

/-- Bland text in front of a trace changes nothing of what it carries. -/
theorem carries_bland_append_iff (h : u.text.all isBland = true) :
    Carries style (u ++ m) origins ↔ Carries style m origins := by
  have hu := closed_of_isBland h
  have hp : placeholders (u ++ m) = placeholders m := by
    rw [placeholders_append hu, placeholders, placeholdersFrom_of_isBland h, List.nil_append]
  constructor
  · rintro ⟨hc, ho, hn⟩
    rw [text_append] at hc hn
    exact ⟨(Quote.closed_append_iff hu).mp hc, hp ▸ ho,
      Placeholder.highest_of_isBland h m.text ▸ hn⟩
  · rintro ⟨hc, ho, hn⟩
    refine ⟨?_, hp.trans ho, ?_⟩
    · rw [text_append]
      exact hu.append hc
    · rw [text_append, Placeholder.highest_of_isBland h]
      exact hn

theorem carries_nil : Carries style [] [] :=
  ⟨rfl, rfl, by unfold Placeholder.highest; split <;> rfl⟩

theorem carries_of_isBland (h : u.text.all isBland = true) : Carries style u [] := by
  have hc : Carries style (u ++ []) [] := (carries_bland_append_iff h).mpr carries_nil
  rwa [List.append_nil] at hc

theorem Carries.own_append (h : Carries style m origins) {t : Text}
    (ht : t.all isBland = true) : Carries style (own t ++ m) origins :=
  (carries_bland_append_iff (by rwa [text_own])).mpr h

theorem Carries.append_own (h : Carries style m origins) {t : Text} (ht : t.all isBland = true)
    (hbreak : Breaks t) : Carries style (m ++ own t) origins := by
  have hown : Carries style (own t) [] := carries_of_isBland (by rwa [text_own])
  have happ := h.append hown (by rwa [text_own])
  rwa [List.append_nil] at happ

theorem Carries.parenthesized (h : Carries style m origins) :
    Carries style (parenthesized m) origins :=
  (h.own_append (by decide)).append_own (by decide)
    (Placeholder.breaks_of_head? (by decide))

theorem Carries.trimEndBy {drop : Char → Bool} (h : Carries style m origins)
    (hdrop : ∀ c, drop c = true → isSpacer c = true) :
    Carries style (trimEndBy drop m) origins := by
  obtain ⟨u, hu, hall⟩ : ∃ u, m = Trace.trimEndBy drop m ++ u ∧ u.text.all drop = true := by
    refine ⟨(m.reverse.takeWhile fun x => drop x.char).reverse, ?_, ?_⟩
    · rw [Trace.trimEndBy, ← List.reverse_append, List.takeWhile_append_dropWhile,
        List.reverse_reverse]
    · rw [text, List.all_map, List.all_reverse]
      exact List.all_takeWhile
  have hspacer : u.text.all isSpacer = true :=
    List.all_eq_true.mpr fun c hc => hdrop c (List.all_eq_true.mp hall c hc)
  have hbland := Placeholder.isBland_of_isSpacer hspacer
  have hclosed : Quote.Closed (Trace.trimEndBy drop m).text := by
    have hc := h.closed
    rw [hu, text_append, Quote.Closed, Quote.after_append,
      Placeholder.after_of_isBland hbland] at hc
    exact hc
  rw [hu] at h
  have hleft := (h.of_append hclosed (Placeholder.breaks_of_isSpacer hspacer)).1
  have hnone : (Trace.placeholders u).length = 0 := by
    rw [Trace.placeholders, placeholdersFrom_of_isBland hbland, List.length_nil]
  have hlen : Placeholder.count (Trace.trimEndBy drop m).text = origins.length := by
    have hp := congrArg List.length h.placeholders
    rw [placeholders_append hclosed, List.length_append, hnone, length_placeholders,
      List.length_map] at hp
    exact hp
  rwa [hlen, List.take_length] at hleft

theorem Carries.trimEnd (h : Carries style m origins) : Carries style (trimEnd m) origins :=
  h.trimEndBy fun _ => Placeholder.isSpacer_of_isBlank

theorem Carries.trim (h : Carries style m origins) : Carries style (trim m) origins := by
  refine Carries.trimEndBy ?_ fun _ => Placeholder.isSpacer_of_isBlank
  rw [← List.takeWhile_append_dropWhile (p := fun x : Mark => Text.isBlank x.char) (l := m)] at h
  refine (carries_bland_append_iff ?_).mp h
  refine Placeholder.isBland_of_isSpacer (List.all_eq_true.mpr fun c hc => ?_)
  obtain ⟨x, hx, rfl⟩ := List.mem_map.mp hc
  exact Placeholder.isSpacer_of_isBlank (List.all_eq_true.mp List.all_takeWhile x hx)

theorem placeholdersFrom_labelFrom (origin : Nat → Origin) (k : Nat) (q : Quote) (t : Text) :
    placeholdersFrom q (labelFrom origin k q t) =
      ((List.range' k (Placeholder.countFrom q t)).map origin).map some := by
  induction t generalizing k q with
  | nil => rfl
  | cons c t ih =>
    rw [labelFrom, Placeholder.countFrom]
    split
    · rename_i hq
      rw [placeholdersFrom, if_pos hq, ih, Nat.add_comm 1, List.range'_succ]
      rfl
    · rename_i hq
      rw [placeholdersFrom, if_neg hq, ih, Nat.zero_add]
      rfl

/-- A labelled text carries its own placeholders in order. -/
theorem carries_label (origin : Nat → Origin) {t : Text} (hclosed : Quote.Closed t)
    (hnumber : Placeholder.highest style t = 0) :
    Carries style (label origin t) ((List.range (Placeholder.count t)).map origin) where
  closed := by rwa [text_label]
  placeholders := by
    rw [placeholders, label, placeholdersFrom_labelFrom, List.range_eq_range']
    rfl
  unnumbered := by rwa [text_label]

/-- A position where a keyword occurs cuts outside quotes, and no number goes on there. -/
theorem cut_of_occurs {k t : Text} (hk : k ∈ Keyword.cuts) {i : Nat} (h : Text.Occurs k t i) :
    Quote.Closed (t.take i) ∧ Breaks (t.drop i) := by
  have hq := congrArg Place.quote h.2.1
  rw [Place.after_quote] at hq
  exact ⟨hq, Placeholder.breaks_of_occurs hk h⟩

/-- So does a position where a search for keywords stops, which may be the end. -/
theorem cut_of_found {t : Text} {found : Option Nat}
    (hfound : ∀ i, found = some i → ∃ k ∈ Keyword.cuts, Text.Occurs k t i) (ht : Quote.Closed t) :
    Quote.Closed (t.take (found.getD t.length)) ∧ Breaks (t.drop (found.getD t.length)) := by
  refine ⟨?_, Placeholder.breaks_of_found hfound⟩
  cases found with
  | none => rwa [Option.getD_none, List.take_length]
  | some i =>
    obtain ⟨k, hk, ho⟩ := hfound i rfl
    exact (cut_of_occurs hk ho).1

theorem cut_of_first {ks : List Text} {t : Text} (hks : ∀ k ∈ ks, k ∈ Keyword.cuts) (start : Nat)
    (ht : Quote.Closed t) {i : Nat} (hi : i = (Text.firstTopLevel? ks start t).getD t.length) :
    Quote.Closed (t.take i) ∧ Breaks (t.drop i) := by
  rw [hi]
  refine cut_of_found (fun j hj => ?_) ht
  obtain ⟨k, hk, ho⟩ := (Text.firstTopLevel?_eq_some_iff.mp hj).1
  exact ⟨k, hks k hk, ho⟩

theorem cut_of_topLevel? {k t : Text} (hk : k ∈ Keyword.cuts) (start : Nat)
    (ht : Quote.Closed t) {i : Nat} (hi : i = (Text.topLevel? k start t).getD t.length) :
    Quote.Closed (t.take i) ∧ Breaks (t.drop i) := by
  rw [hi]
  exact cut_of_found (fun _ hj => ⟨k, hk, Text.occurs_of_topLevel? hj⟩) ht

theorem Carries.cut (h : Carries style m origins) {i : Nat}
    (hi : Quote.Closed (m.text.take i) ∧ Breaks (m.text.drop i)) :
    Carries style (m.take i) (origins.take (Placeholder.count (m.text.take i))) ∧
      Carries style (m.drop i) (origins.drop (Placeholder.count (m.text.take i))) := by
  rw [← List.take_append_drop i m] at h
  have := h.of_append (by rw [text_take]; exact hi.1) (by rw [text_drop]; exact hi.2)
  rwa [text_take] at this

/-- A rest without placeholders can be left out. -/
theorem Carries.take_of_count (h : Carries style m origins) {i : Nat}
    (hi : Quote.Closed (m.text.take i) ∧ Breaks (m.text.drop i))
    (hrest : Placeholder.count (m.text.drop i) = 0) : Carries style (m.take i) origins := by
  obtain ⟨hl, hr⟩ := h.cut hi
  have hnone := hr.count
  rw [text_drop, hrest, List.length_drop] at hnone
  have hall : origins.take (Placeholder.count (m.text.take i)) = origins :=
    List.take_of_length_le (by omega)
  rwa [hall] at hl

end PagedQuery.Trace
