import PagedQuery.Proofs.Build.Truth

/-!
# Alternatives beside other terms

Read by precedence, terms hold for all rows for which each of them or its
alternative holds, and for no others when no alternative stands beside another
term. Where an alternative does, and all conditions are different, they can be
made to hold or not so that the two readings differ.
-/
namespace PagedQuery.Predicate

open Text (Single evaluate)

namespace Term

def isEither : Term → Bool
  | either _ _ => true
  | _ => false

/-- No alternative stands beside another term. -/
def Alone (ts : List Term) : Prop := ts.length ≤ 1 ∨ ∀ t ∈ ts, t.isEither = false

instance (ts : List Term) : Decidable (Alone ts) := inferInstanceAs (Decidable (_ ∨ _))

mutual

/-- Every list of terms in the tree has the property. -/
def Levels (P : List Term → Prop) : Term → Prop
  | leaf _ => True
  | group terms => P terms ∧ LevelsEach P terms
  | either term alternative => term.Levels P ∧ P alternative ∧ LevelsEach P alternative

def LevelsEach (P : List Term → Prop) : List Term → Prop
  | [] => True
  | t :: ts => t.Levels P ∧ LevelsEach P ts

end

def LevelsAll (P : List Term → Prop) (ts : List Term) : Prop := P ts ∧ LevelsEach P ts

variable {P : List Term → Prop} {join : List Truth → Bool} {v w : Text → Bool} {t : Term}
  {ts xs ys : List Term}

theorem levelsEach_iff : LevelsEach P ts ↔ ∀ t ∈ ts, t.Levels P := by
  induction ts with
  | nil => exact iff_of_true trivial fun t ht => absurd ht List.not_mem_nil
  | cons t ts ih => rw [LevelsEach, ih, List.forall_mem_cons]

theorem alternative_truth : (t.truth join v).alternative = none ↔ t.isEither = false := by
  cases t with
  | leaf condition => exact iff_of_true rfl rfl
  | group ts => exact iff_of_true rfl rfl
  | either t ts => exact iff_of_false (by simp [truth]) (by simp [isEither])

theorem required_iff : Truth.required (ts.map (truth join v)) = true ↔
    ∀ t ∈ ts, (t.truth join v).whole = true := by
  rw [Truth.required, List.all_map, List.all_eq_true]
  rfl

theorem byPrecedence_of_whole (h : ∀ t ∈ ts, (t.truth Truth.byPrecedence v).whole = true) :
    Truth.byPrecedence (ts.map (truth Truth.byPrecedence v)) = true :=
  Truth.byPrecedence_of_required (required_iff.mpr h)

theorem whole_of_required (h : (t.truth Truth.required v).whole = true) :
    (t.truth Truth.byPrecedence v).whole = true := by
  induction t with
  | leaf condition => exact h
  | group ts ih =>
    rw [truth_group, Truth.whole, Option.getD_none, Bool.or_false] at h ⊢
    exact byPrecedence_of_whole fun t ht => ih t ht (required_iff.mp h t ht)
  | either t ts iht ihts =>
    rw [truth_either, Truth.whole, Option.getD_some, Bool.or_eq_true] at h ⊢
    exact h.imp iht fun hts =>
      byPrecedence_of_whole fun t ht => ihts t ht (required_iff.mp hts t ht)

theorem byPrecedence_of_required (h : Truth.required (ts.map (truth Truth.required v)) = true) :
    Truth.byPrecedence (ts.map (truth Truth.byPrecedence v)) = true :=
  byPrecedence_of_whole fun t ht => whole_of_required (required_iff.mp h t ht)

theorem byPrecedence_eq_required_of_alone (h : Alone ts)
    (hts : ∀ t ∈ ts, t.truth Truth.byPrecedence v = t.truth Truth.required v) :
    Truth.byPrecedence (ts.map (truth Truth.byPrecedence v)) =
      Truth.required (ts.map (truth Truth.required v)) := by
  rw [List.map_congr_left hts]
  refine Truth.byPrecedence_eq_required (h.imp (fun hlength => ?_) fun hnone x hx => ?_)
  · rwa [List.length_map]
  · obtain ⟨t, ht, rfl⟩ := List.mem_map.mp hx
    exact alternative_truth.mpr (hnone t ht)

/-- A term without alternatives beside others reads as it is meant. -/
theorem truth_eq_of_levels (h : t.Levels Alone) :
    t.truth Truth.byPrecedence v = t.truth Truth.required v := by
  induction t with
  | leaf condition => rfl
  | group ts ih =>
    have hts := fun t ht => ih t ht (levelsEach_iff.mp h.2 t ht)
    rw [truth_group, truth_group, byPrecedence_eq_required_of_alone h.1 hts]
  | either t ts iht ihts =>
    have hts := fun t ht => ihts t ht (levelsEach_iff.mp h.2.2 t ht)
    rw [truth_either, truth_either, iht h.1, byPrecedence_eq_required_of_alone h.2.1 hts]

theorem byPrecedence_eq_required (h : LevelsAll Alone ts) :
    Truth.byPrecedence (ts.map (truth Truth.byPrecedence v)) =
      Truth.required (ts.map (truth Truth.required v)) :=
  byPrecedence_eq_required_of_alone h.1 fun t ht => truth_eq_of_levels (levelsEach_iff.mp h.2 t ht)

/-- The conditions of a term, without blanks at their ends. -/
def keys (t : Term) : List Text := t.leaves.map fun f => Text.trim f.text

theorem keys_group : keys (group ts) = ts.flatMap keys := by
  rw [keys, leaves_group, List.map_flatMap]
  rfl

theorem keys_either : keys (either t ts) = t.keys ++ ts.flatMap keys := by
  rw [keys, leaves_either, List.map_append, List.map_flatMap]
  rfl

/-- Every condition of the term is a single one. -/
def Singles (t : Term) : Prop := ∀ f ∈ t.leaves, Single f.text

theorem singles_group : Singles (group ts) ↔ ∀ t ∈ ts, t.Singles := forall_leaves_group

theorem singles_either : Singles (either t ts) ↔ t.Singles ∧ ∀ t ∈ ts, t.Singles :=
  forall_leaves_either

theorem truth_congr (hsingle : t.Singles) (h : ∀ k ∈ t.keys, v k = w k) :
    t.truth join v = t.truth join w := by
  induction t with
  | leaf condition =>
    have hc := hsingle condition List.mem_cons_self
    rw [truth, truth, hc.evaluate_eq, hc.evaluate_eq]
    exact congrArg (fun b => Truth.mk b none) (h _ List.mem_cons_self)
  | group ts ih =>
    rw [keys_group] at h
    rw [truth_group, truth_group, List.map_congr_left fun t ht =>
      ih t ht (singles_group.mp hsingle t ht) fun k hk => h k (List.mem_flatMap_of_mem ht hk)]
  | either t ts iht ihts =>
    rw [keys_either] at h
    obtain ⟨ht, hts⟩ := singles_either.mp hsingle
    rw [truth_either, truth_either, iht ht fun k hk => h k (List.mem_append_left _ hk),
      List.map_congr_left fun t ht => ihts t ht (hts t ht) fun k hk =>
        h k (List.mem_append_right _ (List.mem_flatMap_of_mem ht hk))]

theorem whole_of_true (hsingle : t.Singles) (h : ∀ k ∈ t.keys, v k = true) :
    (t.truth Truth.required v).whole = true := by
  induction t with
  | leaf condition =>
    have hc := hsingle condition List.mem_cons_self
    rw [truth, hc.evaluate_eq, h _ List.mem_cons_self]
    rfl
  | group ts ih =>
    rw [keys_group] at h
    rw [truth_group, Truth.whole, Option.getD_none, Bool.or_false, required_iff]
    exact fun t ht => ih t ht (singles_group.mp hsingle t ht) fun k hk =>
      h k (List.mem_flatMap_of_mem ht hk)
  | either t ts iht ihts =>
    rw [keys_either] at h
    rw [truth_either, Truth.whole,
      iht (singles_either.mp hsingle).1 fun k hk => h k (List.mem_append_left _ hk)]
    rfl

theorem required_eq_false (ht : t ∈ ts) (h : (t.truth join v).whole = false) :
    Truth.required (ts.map (truth join v)) = false := by
  rw [← Bool.not_eq_true, required_iff]
  exact fun hall => absurd (hall t ht) (by rw [h]; exact Bool.false_ne_true)

theorem not_whole_of_false (hsingle : t.Singles) (hfull : t.Levels (· ≠ []))
    (h : ∀ k ∈ t.keys, v k = false) : (t.truth Truth.required v).whole = false := by
  induction t with
  | leaf condition =>
    have hc := hsingle condition List.mem_cons_self
    rw [truth, hc.evaluate_eq, h _ List.mem_cons_self]
    rfl
  | group ts ih =>
    rw [keys_group] at h
    obtain ⟨t, ht⟩ := List.exists_mem_of_ne_nil ts hfull.1
    rw [truth_group, Truth.whole, Option.getD_none, Bool.or_false]
    exact required_eq_false ht (ih t ht (singles_group.mp hsingle t ht)
      (levelsEach_iff.mp hfull.2 t ht) fun k hk => h k (List.mem_flatMap_of_mem ht hk))
  | either t ts iht ihts =>
    rw [keys_either] at h
    obtain ⟨ht, hts⟩ := singles_either.mp hsingle
    obtain ⟨u, hu⟩ := List.exists_mem_of_ne_nil ts hfull.2.1
    rw [truth_either, Truth.whole, Option.getD_some,
      iht ht hfull.1 fun k hk => h k (List.mem_append_left _ hk), Bool.false_or]
    exact required_eq_false hu (ihts u hu (hts u hu) (levelsEach_iff.mp hfull.2.2 u hu)
      fun k hk => h k (List.mem_append_right _ (List.mem_flatMap_of_mem hu hk)))

/-- The truths of the given keys, and `b` for all others. -/
def splice (keys : List Text) (v : Text → Bool) (b : Bool) (k : Text) : Bool :=
  if keys.contains k then v k else b

theorem splice_of_mem {keys : List Text} {k : Text} {b : Bool} (h : k ∈ keys) :
    splice keys v b k = v k := if_pos (List.contains_iff_mem.mpr h)

theorem splice_of_not_mem {keys : List Text} {k : Text} {b : Bool} (h : k ∉ keys) :
    splice keys v b k = b := if_neg (mt List.contains_iff_mem.mp h)

/-- The two readings of a term differ. -/
def Differs (t : Term) : Prop := ∃ v, (t.truth Truth.byPrecedence v).whole = true ∧
  (t.truth Truth.required v).whole = false

def DiffersAll (ts : List Term) : Prop :=
  ∃ v, Truth.byPrecedence (ts.map (truth Truth.byPrecedence v)) = true ∧
    Truth.required (ts.map (truth Truth.required v)) = false

theorem disjoint_keys (h : ((xs ++ ys).flatMap keys).Nodup) :
    List.Disjoint (xs.flatMap keys) (ys.flatMap keys) := by
  rw [List.flatMap_append] at h
  exact (List.nodup_append'.mp h).2.2

theorem whole_of_disjoint {ks : List Text} (hsingle : t.Singles) (h : List.Disjoint ks t.keys) :
    (t.truth Truth.byPrecedence (splice ks v true)).whole = true :=
  whole_of_required (whole_of_true hsingle fun _ hk => splice_of_not_mem fun hks => h hks hk)

theorem disjoint_keys_of_mem {ks : List Text} (h : List.Disjoint ks (ts.flatMap keys))
    (ht : t ∈ ts) : List.Disjoint ks t.keys := fun _ hks hk => h hks (List.mem_flatMap_of_mem ht hk)

/-- A term in whose readings there is a difference makes one among terms that hold. -/
theorem differsAll_of_mem (hsingles : ∀ t ∈ ts, t.Singles) (hnodup : (ts.flatMap keys).Nodup)
    (ht : t ∈ ts) (h : t.Differs) : DiffersAll ts := by
  obtain ⟨v, hread, hmeant⟩ := h
  have hsame : ∀ join, t.truth join (splice t.keys v true) = t.truth join v := fun join =>
    truth_congr (hsingles t ht) fun k hk => splice_of_mem hk
  refine ⟨splice t.keys v true, byPrecedence_of_whole fun u hu => ?_,
    required_eq_false ht (by rw [hsame, hmeant])⟩
  obtain ⟨xs, ys, rfl⟩ := List.append_of_mem ht
  have hfront := disjoint_keys hnodup
  have hback : List.Disjoint (t.keys) (ys.flatMap keys) := by
    rw [← List.singleton_append, ← List.append_assoc] at hnodup
    exact fun k hk => disjoint_keys hnodup (by
      rw [List.flatMap_append, List.flatMap_singleton]
      exact List.mem_append_right _ hk)
  rcases List.mem_append.mp hu with hxs | hys
  · refine whole_of_disjoint (hsingles u hu) fun k hkt hk => ?_
    exact hfront (List.mem_flatMap_of_mem hxs hk) (List.mem_flatMap_of_mem List.mem_cons_self hkt)
  · rcases List.mem_cons.mp hys with rfl | hys
    · rw [hsame, hread]
    · exact whole_of_disjoint (hsingles u hu) (disjoint_keys_of_mem hback hys)

/-- An alternative beside another term makes a difference. -/
theorem differsAll_of_not_alone (hsingles : ∀ t ∈ ts, t.Singles)
    (hfull : ∀ t ∈ ts, t.Levels (· ≠ [])) (hnodup : (ts.flatMap keys).Nodup) (h : ¬Alone ts) :
    DiffersAll ts := by
  obtain ⟨hlength, heither⟩ := not_or.mp h
  simp only [not_forall, Bool.not_eq_false] at heither
  obtain ⟨e, he, hein⟩ := heither
  obtain ⟨xs, ys, rfl⟩ := List.append_of_mem he
  have hsingle := hsingles e he
  cases e with
  | leaf condition => exact absurd hein Bool.false_ne_true
  | group terms => exact absurd hein Bool.false_ne_true
  | either t alternative =>
    obtain ⟨htsingle, halternative⟩ := singles_either.mp hsingle
    cases xs with
    | nil =>
      obtain ⟨u, hu⟩ := List.exists_mem_of_ne_nil ys (by rintro rfl; exact hlength le_rfl)
      have humem := List.mem_cons_of_mem (either t alternative) hu
      have hdisjoint : List.Disjoint (ys.flatMap keys) t.keys := by
        have hfront : List.Disjoint ([either t alternative].flatMap keys) (ys.flatMap keys) :=
          disjoint_keys hnodup
        rw [List.flatMap_singleton, keys_either] at hfront
        exact fun k hys hk => hfront (List.mem_append_left _ hk) hys
      refine ⟨splice (ys.flatMap keys) (fun _ => false) true, ?_, required_eq_false humem ?_⟩
      · rw [List.nil_append, List.map_cons, truth_either, Truth.byPrecedence, Truth.stretches,
          whole_of_disjoint htsingle hdisjoint, Bool.true_or]
      · exact not_whole_of_false (hsingles u humem) (hfull u humem) fun k hk =>
          splice_of_mem (List.mem_flatMap_of_mem hu hk)
    | cons x xs =>
      have hdisjoint := disjoint_keys hnodup
      refine ⟨splice ((x :: xs).flatMap keys) (fun _ => false) true, ?_,
        required_eq_false List.mem_cons_self ?_⟩
      · have hys : ∀ u ∈ ys, _ := fun u hu => whole_of_disjoint (v := fun _ => false)
          (hsingles u (List.mem_append_right _ (List.mem_cons_of_mem _ hu)))
          (disjoint_keys_of_mem hdisjoint (List.mem_cons_of_mem _ hu))
        have halt : ∀ u ∈ alternative, _ := fun u hu => whole_of_disjoint (v := fun _ => false)
          (halternative u hu) fun k hks hk => hdisjoint hks
            (List.mem_flatMap_of_mem List.mem_cons_self
              (keys_either ▸ List.mem_append_right _ (List.mem_flatMap_of_mem hu hk)))
        have hrest := byPrecedence_of_whole hys
        rw [Truth.byPrecedence] at hrest
        rw [List.map_append, Truth.byPrecedence, Truth.stretches_append, Bool.or_true]
        rw [List.map_cons, truth_either, Truth.stretches, byPrecedence_of_whole halt, Bool.true_and,
          hrest]
      · exact not_whole_of_false (hsingles x List.mem_cons_self) (hfull x List.mem_cons_self)
          fun k hk => splice_of_mem (List.mem_flatMap_of_mem List.mem_cons_self hk)

theorem differsAll_of_not_levels (hsingles : ∀ t ∈ ts, t.Singles)
    (hfull : ∀ t ∈ ts, t.Levels (· ≠ [])) (hnodup : (ts.flatMap keys).Nodup)
    (ih : ∀ t ∈ ts, ¬t.Levels Alone → t.Differs) (h : ¬LevelsAll Alone ts) : DiffersAll ts := by
  by_cases halone : Alone ts
  · have heach : ¬LevelsEach Alone ts := fun heach => h ⟨halone, heach⟩
    rw [levelsEach_iff] at heach
    simp only [not_forall] at heach
    obtain ⟨t, ht, hlevels⟩ := heach
    exact differsAll_of_mem hsingles hnodup ht (ih t ht hlevels)
  · exact differsAll_of_not_alone hsingles hfull hnodup halone

/-- Over different conditions the readings of a term differ unless its alternatives stand alone. -/
theorem differs_of_not_levels (hsingle : t.Singles) (hfull : t.Levels (· ≠ []))
    (hnodup : t.keys.Nodup) (h : ¬t.Levels Alone) : t.Differs := by
  induction t with
  | leaf condition => exact absurd trivial h
  | group ts ih =>
    rw [keys_group] at hnodup
    have hts := singles_group.mp hsingle
    have hlevels := levelsEach_iff.mp hfull.2
    obtain ⟨v, hread, hmeant⟩ := differsAll_of_not_levels hts hlevels hnodup
      (fun t ht => ih t ht (hts t ht) (hlevels t ht) ((List.nodup_flatMap.mp hnodup).1 t ht)) h
    refine ⟨v, ?_, ?_⟩
    · rw [truth_group, Truth.whole, hread, Bool.true_or]
    · rw [truth_group, Truth.whole, hmeant]
      rfl
  | either t ts iht ihts =>
    rw [keys_either] at hnodup
    obtain ⟨ht, hts⟩ := singles_either.mp hsingle
    obtain ⟨htfull, hne, heach⟩ := hfull
    have hlevels := levelsEach_iff.mp heach
    obtain ⟨hnodupt, hnodupts, hdisjoint⟩ := List.nodup_append'.mp hnodup
    by_cases hterm : t.Levels Alone
    · obtain ⟨v, hread, hmeant⟩ := differsAll_of_not_levels hts hlevels hnodupts
        (fun t ht => ihts t ht (hts t ht) (hlevels t ht) ((List.nodup_flatMap.mp hnodupts).1 t ht))
        fun hall => h ⟨hterm, hall⟩
      have hsame : ∀ join, ts.map (truth join (splice (ts.flatMap keys) v false)) =
          ts.map (truth join v) := fun join => List.map_congr_left fun u hu =>
        truth_congr (hts u hu) fun k hk => splice_of_mem (List.mem_flatMap_of_mem hu hk)
      have hfalse := not_whole_of_false (v := splice (ts.flatMap keys) v false) ht htfull
        fun k hk => splice_of_not_mem fun hks => hdisjoint hk hks
      refine ⟨splice (ts.flatMap keys) v false, ?_, ?_⟩
      · rw [truth_either, hsame, Truth.whole, hread]
        exact Bool.or_true _
      · rw [truth_either, hsame, Truth.whole, hmeant, hfalse]
        rfl
    · obtain ⟨v, hread, hmeant⟩ := iht ht htfull hnodupt hterm
      have hsame : ∀ join, t.truth join (splice t.keys v false) = t.truth join v := fun join =>
        truth_congr ht fun k hk => splice_of_mem hk
      obtain ⟨u, hu⟩ := List.exists_mem_of_ne_nil ts hne
      have hother : ∀ k ∈ u.keys, splice t.keys v false k = false := fun k hk =>
        splice_of_not_mem fun hkt => hdisjoint hkt (List.mem_flatMap_of_mem hu hk)
      have hfalse := required_eq_false hu (not_whole_of_false (hts u hu) (hlevels u hu) hother)
      refine ⟨splice t.keys v false, ?_, ?_⟩
      · rw [truth_either, hsame, Truth.whole, hread, Bool.true_or]
      · rw [truth_either, hsame, Truth.whole, hmeant, hfalse]
        rfl

/-- Different single conditions read as they are meant for all truths only if every alternative
stands alone. -/
theorem levelsAll_of_agree (hsingles : ∀ t ∈ ts, t.Singles) (hfull : LevelsEach (· ≠ []) ts)
    (hnodup : (ts.flatMap keys).Nodup)
    (h : ∀ v, Truth.byPrecedence (ts.map (truth Truth.byPrecedence v)) =
      Truth.required (ts.map (truth Truth.required v))) : LevelsAll Alone ts := by
  have hlevels := levelsEach_iff.mp hfull
  by_contra hall
  obtain ⟨v, hread, hmeant⟩ := differsAll_of_not_levels hsingles hlevels hnodup
    (fun t ht => differs_of_not_levels (hsingles t ht) (hlevels t ht)
      ((List.nodup_flatMap.mp hnodup).1 t ht)) hall
  rw [h v, hmeant] at hread
  exact Bool.false_ne_true hread

end Term

end PagedQuery.Predicate
