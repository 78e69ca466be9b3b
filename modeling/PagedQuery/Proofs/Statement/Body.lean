import PagedQuery.Proofs.Lexical.Word
import PagedQuery.Proofs.Statement.Normalization

/-!
# Clause bodies

The body of a clause is closed, is not blank, and holds none of the keywords that
begin a clause. Blanks around a body hide no keyword, so bodies are still bodies
when they are trimmed; so are the condition that a filter makes, a body in
parentheses and a derived table.
-/
namespace PagedQuery

namespace Keyword

/-- What begins the clauses of a statement. -/
def clauses : List Text := [fromClause, whereClause] ++ trailing

theorem mem_cuts_of_mem_clauses : ∀ k ∈ clauses, k ∈ cuts := by decide

theorem mem_clauses_of_mem_trailing {k : Text} (h : k ∈ trailing) : k ∈ clauses :=
  List.mem_append_right _ h

/-- Keywords are spaces and capital letters. -/
theorem isUpper_of_mem {k : Text} (hk : k ∈ cuts) {c : Char} (hc : c ∈ k) :
    c = ' ' ∨ c.isUpper = true := by
  have hall : ∀ k ∈ cuts, k.all (fun c => c = ' ' || c.isUpper) = true := by decide
  have hchar := List.all_eq_true.mp (hall k hk) c hc
  rwa [Bool.or_eq_true, decide_eq_true_iff] at hchar

theorem exists_letter {k : Text} (hk : k ∈ cuts) : ∃ c ∈ k[1]?, c.isUpper = true := by
  have hany : ∀ k ∈ cuts, k[1]?.any Char.isUpper = true := by decide
  have hletter := hany k hk
  cases hc : k[1]? with
  | none =>
    rw [hc] at hletter
    exact absurd hletter (by decide)
  | some c =>
    rw [hc] at hletter
    exact ⟨c, rfl, hletter⟩

end Keyword

namespace Text

/-- The text is closed and holds no keyword that begins a clause. -/
structure Inert (t : Text) : Prop where
  closed : Place.Closed t
  free : ∀ k ∈ Keyword.clauses, Free k t

/-- The text can be the body of a clause: it is closed, not blank, and no keyword that begins a
clause is in what trimming leaves of it. -/
structure IsBody (t : Text) : Prop where
  closed : Place.Closed t
  nonblank : trim t ≠ []
  free : ∀ k ∈ Keyword.clauses, Free k (trim t)

instance (t : Text) : Decidable (Inert t) :=
  decidable_of_iff (Place.Closed t ∧ ∀ k ∈ Keyword.clauses, Free k t)
    ⟨fun h => ⟨h.1, h.2⟩, fun h => ⟨h.closed, h.free⟩⟩

instance (t : Text) : Decidable (IsBody t) :=
  decidable_of_iff (Place.Closed t ∧ trim t ≠ [] ∧ ∀ k ∈ Keyword.clauses, Free k (trim t))
    ⟨fun h => ⟨h.1, h.2.1, h.2.2⟩, fun h => ⟨h.closed, h.nonblank, h.free⟩⟩

variable {k s t u v : Text} {i : Nat}

theorem not_isUpper_of_isBlank {c : Char} (h : isBlank c = true) :
    (foldChar c).isUpper = false := by
  rw [Bool.eq_false_iff]
  exact fun hu => not_bounds_iff.mpr (isIdentifier_of_isUpper hu) (bounds_of_isBlank h)

theorem not_isUpper_of_fold {c : Char} (hv : v.all isBlank = true) (hc : c ∈ fold v) :
    c.isUpper = false := by
  obtain ⟨d, hd, rfl⟩ := List.mem_map.mp hc
  exact not_isUpper_of_isBlank (List.all_eq_true.mp hv d hd)

theorem Occurs.le_of_isBlank (hk : k ∈ Keyword.cuts) (hu : u.all isBlank = true)
    (h : Occurs k (u ++ t) i) : u.length ≤ i + 1 := by
  by_contra hlt
  obtain ⟨c, hc, hupper⟩ := Keyword.exists_letter hk
  have hlong := Keyword.one_lt_length k hk
  have hget := h.getElem?_fold hlong
  rw [hc, fold, List.getElem?_map, List.getElem?_append_left (by omega),
    List.getElem?_eq_getElem (by omega), Option.map_some, Option.some.injEq] at hget
  have hblank := List.all_eq_true.mp hu _ (List.getElem_mem (show i + 1 < u.length by omega))
  rw [← hget, not_isUpper_of_isBlank hblank] at hupper
  exact absurd hupper (by decide)

/-- A keyword that begins in front of blanks needs no more than one space behind it. -/
theorem Occurs.of_blanks (hk : k ∈ Keyword.cuts) (hv : v.all isBlank = true)
    (h : Occurs k (s ++ v) i) (hi : i < s.length) : Occurs k (s ++ [' ']) i := by
  by_cases hlead : LeadsOff v
  · exact h.of_seam hk hlead hi
  · obtain ⟨hlt, hp, hpre⟩ := h
    have hfold : (fold s).length = s.length := fold_length s
    rw [List.take_append_of_le_length (by omega)] at hp
    rw [fold_append, List.drop_append_of_le_length (by omega)] at hpre
    refine ⟨by rw [List.length_append]; omega, ?_, ?_⟩
    · rwa [List.take_append_of_le_length (by omega)]
    rw [fold_append, List.drop_append_of_le_length (by omega)]
    rcases prefix_append_cases hpre with hs | ⟨hl, -, hdrop⟩
    · exact hs.trans (List.prefix_append _ _)
    · refine absurd ⟨fun c hc => ?_, fun c hc => ?_⟩ hlead
      · have hmem : c ∈ k := by
          refine List.mem_of_mem_drop (i := ((fold s).drop i).length) ?_
          obtain ⟨d, w, hw⟩ := List.exists_cons_of_ne_nil
            (show k.drop ((fold s).drop i).length ≠ [] from
              fun e => absurd (List.drop_eq_nil_iff.mp e) (by omega))
          rw [hw] at hdrop ⊢
          obtain ⟨x, hx⟩ := hdrop
          rw [← hx, List.cons_append, List.head?_cons, Option.some.injEq] at hc
          exact hc ▸ List.mem_cons_self
        refine (Keyword.isUpper_of_mem hk hmem).resolve_right fun hupper => ?_
        rw [not_isUpper_of_fold hv (List.mem_of_head? hc)] at hupper
        exact absurd hupper (by decide)
      · have hnot := not_isUpper_of_fold hv (List.mem_of_getElem? hc)
        constructor <;> rintro rfl <;> exact absurd hnot (by decide)

theorem Occurs.lt_of_isBlank (hk : k ∈ Keyword.cuts) (hv : v.all isBlank = true)
    (h : Occurs k (s ++ v) i) : i < s.length := by
  by_contra hge
  obtain ⟨c, hc, hupper⟩ := Keyword.exists_letter hk
  have hlong := Keyword.one_lt_length k hk
  have hget := h.getElem?_fold hlong
  rw [hc, fold_append, List.getElem?_append_right (by rw [fold_length]; omega)] at hget
  rw [not_isUpper_of_fold hv (List.mem_of_getElem? hget)] at hupper
  exact absurd hupper (by decide)

/-- Blanks in front of a text are as good as one space. -/
theorem Occurs.drop_blanks (hk : k ∈ Keyword.cuts) (hu : u.all isBlank = true)
    (h : Occurs k (' ' :: u ++ t) (u.length + i)) : Occurs k (' ' :: t) i := by
  have hplain : (' ' :: u).all isPlain = true := by
    rw [List.all_cons]
    exact List.all_eq_true.mpr fun c hc => isPlain_of_isBlank (List.all_eq_true.mp hu c hc)
  cases i with
  | zero =>
    have hspace := h.getElem? hk
    obtain ⟨-, -, hpre⟩ := h
    have hlt : u.length < (' ' :: u).length := Nat.lt_succ_self _
    have hdrop : (' ' :: u ++ t).drop u.length = (' ' :: u)[u.length] :: t := by
      have hnil : (' ' :: u).drop (u.length + 1) = [] := List.drop_eq_nil_of_le (Nat.le_refl _)
      rw [List.drop_append_of_le_length (Nat.le_of_lt hlt), List.drop_eq_getElem_cons hlt, hnil]
      rfl
    rw [Nat.add_zero, fold, List.getElem?_map, List.getElem?_append_left hlt,
      List.getElem?_eq_getElem hlt, Option.map_some, Option.some.injEq] at hspace
    refine ⟨Nat.succ_pos _, rfl, ?_⟩
    rw [Nat.add_zero, fold_drop, hdrop] at hpre
    rw [fold, List.map_cons, hspace] at hpre
    exact hpre
  | succ n =>
    have hlen : u.length + (n + 1) = (' ' :: u).length + n := by
      rw [List.length_cons]
      omega
    rw [hlen] at h
    have hn := (occurs_append_right (Place.after_of_isPlain hplain _)).mp h
    have hone : Place.after .start [' '] = .start := rfl
    have hone' : Occurs k ([' '] ++ t) ([' '].length + n) := (occurs_append_right hone).mpr hn
    rwa [List.length_singleton, Nat.add_comm] at hone'

/-- Blanks around a text hide no keyword in it. -/
theorem free_of_blanks (hk : k ∈ Keyword.cuts) (hu : u.all isBlank = true)
    (hv : v.all isBlank = true) (ht : Free k t) : Free k (u ++ t ++ v) := by
  refine topLevel?_eq_none_iff.mpr fun i _ ho => ?_
  have hend : (v ++ [' ']).all isBlank = true := by rw [List.all_append, hv]; rfl
  have hsplit : ' ' :: (u ++ t ++ v) ++ [' '] = ' ' :: u ++ (t ++ (v ++ [' '])) := by
    simp only [List.cons_append, List.append_assoc]
  rw [hsplit] at ho
  have hle := ho.le_of_isBlank hk (u := ' ' :: u) (by rw [List.all_cons, hu]; rfl)
  rw [List.length_cons] at hle
  obtain ⟨j, rfl⟩ := Nat.exists_eq_add_of_le (show u.length ≤ i by omega)
  have hj : Occurs k (' ' :: t ++ (v ++ [' '])) j := ho.drop_blanks hk hu
  have hlt := hj.lt_of_isBlank hk hend
  exact topLevel?_eq_none_iff.mp ht j (Nat.zero_le j) (hj.of_blanks hk hend hlt)

theorem IsBody.inert (h : IsBody t) : Inert t where
  closed := h.closed
  free k hk := by
    obtain ⟨u, v, ht, hu, hv⟩ := trim_append_blanks t
    rw [ht]
    exact free_of_blanks (Keyword.mem_cuts_of_mem_clauses k hk) hu hv (h.free k hk)

theorem IsBody.trimEnd (h : IsBody t) : IsBody (trimEnd t) where
  closed := h.closed.trimEnd
  nonblank := by
    rw [trim_trimEnd]
    exact h.nonblank
  free := by
    rw [trim_trimEnd]
    exact h.free

theorem IsBody.trimEnd_ne_nil (h : IsBody t) : Text.trimEnd t ≠ [] := by
  intro e
  have hnil := trim_trimEnd t
  rw [e] at hnil
  exact h.nonblank hnil.symm

theorem free_parenthesized_append (hk : k ∈ Keyword.cuts) (hs : Place.Closed s)
    (ht : ∀ i, ¬Occurs k (t ++ [' ']) i) : Free k (Predicate.parenthesized s ++ t) := by
  refine topLevel?_eq_none_iff.mpr fun i _ ho => ?_
  have hsplit : ' ' :: (Predicate.parenthesized s ++ t) ++ [' '] =
      [' '] ++ (Predicate.parenthesized s ++ (t ++ [' '])) := by
    simp only [List.cons_append, List.nil_append, List.append_assoc]
  rw [hsplit] at ho
  rcases Nat.eq_zero_or_pos i with rfl | hpos
  · obtain ⟨c, hc, hupper⟩ := Keyword.exists_letter hk
    have hlong := Keyword.one_lt_length k hk
    have hget : some '(' = k[1]? := ho.getElem?_fold hlong
    rw [hc, Option.some.injEq] at hget
    rw [← hget] at hupper
    exact absurd hupper (by decide)
  · obtain ⟨j, rfl⟩ := Nat.exists_eq_add_of_le (show [' '].length ≤ i from hpos)
    have hj := (occurs_append_right (by decide)).mp ho
    rcases Nat.lt_or_ge j (Predicate.parenthesized s).length with hlt | hge
    · exact not_occurs_parenthesized hk hs hlt hj
    · obtain ⟨n, rfl⟩ := Nat.exists_eq_add_of_le hge
      exact ht n ((occurs_append_right hs.parenthesized.1).mp hj)

theorem not_occurs_space (hk : k ∈ Keyword.cuts) : ¬Occurs k [' '] i := by
  intro ho
  have hlong := Keyword.one_lt_length k hk
  have := ho.length_le
  rw [List.length_singleton] at this
  omega

theorem trimEnd_parenthesized (t : Text) :
    trimEnd (Predicate.parenthesized t) = Predicate.parenthesized t := by
  refine trimEndBy_eq_self fun c hc => ?_
  rw [Predicate.parenthesized, List.getLast?_concat, Option.some.injEq] at hc
  rw [← hc]
  decide

theorem trim_parenthesized (t : Text) :
    trim (Predicate.parenthesized t) = Predicate.parenthesized t := by
  have hdrop : (Predicate.parenthesized t).dropWhile isBlank = Predicate.parenthesized t := rfl
  rw [trim_eq_trimEnd, hdrop, trimEnd_parenthesized]

theorem isBody_parenthesized (ht : Place.Closed t) : IsBody (Predicate.parenthesized t) where
  closed := ht.parenthesized
  nonblank := by
    rw [trim_parenthesized]
    exact List.cons_ne_nil _ _
  free k hk := by
    rw [trim_parenthesized, ← List.append_nil (Predicate.parenthesized t)]
    have hcut := Keyword.mem_cuts_of_mem_clauses k hk
    exact free_parenthesized_append hcut ht fun i => not_occurs_space hcut

/-- The condition that a filter makes of a body is a body. -/
theorem IsBody.append_term (hs : IsBody s) (hend : Text.trimEnd s = s) {fragment : Text}
    (hf : Place.Closed fragment) : IsBody (s ++ Outline.term fragment) := by
  have hterm : Text.trimEnd (Outline.term fragment) = Outline.term fragment := by
    have hne : Text.trimEnd (Predicate.parenthesized fragment) ≠ [] := by
      rw [trimEnd_parenthesized]
      exact List.cons_ne_nil _ _
    rw [Outline.term, trimEnd_append _ hne, trimEnd_parenthesized]
  have htrim : Text.trim (s ++ Outline.term fragment) = Text.trim s ++ Outline.term fragment := by
    rw [trim_append hs.nonblank (by rw [hterm]; exact List.cons_ne_nil _ _) hend, hterm]
  refine ⟨hs.closed.append (Outline.closed_term hf), ?_, fun k hk => ?_⟩
  · rw [htrim]
    exact List.append_ne_nil_of_left_ne_nil hs.nonblank _
  · have hcut := Keyword.mem_cuts_of_mem_clauses k hk
    have hclosed : Place.Closed (' ' :: Text.trim s) :=
      (Place.closed_of_isPlain (t := [' ']) (by decide)).append hs.closed.trim
    rw [htrim]
    refine topLevel?_eq_none_iff.mpr fun i _ ho => ?_
    have hsplit : ' ' :: (Text.trim s ++ Outline.term fragment) ++ [' '] =
        ' ' :: Text.trim s ++ (Outline.term fragment ++ [' ']) := by
      simp only [List.cons_append, List.append_assoc]
    rw [hsplit] at ho
    rcases Nat.lt_or_ge i (Text.trim s).length.succ with hlt | hge
    · exact not_occurs_of_free hcut (hs.free k hk) (Outline.leadsOff_term fragment [' ']) hlt ho
    · obtain ⟨j, rfl⟩ := Nat.exists_eq_add_of_le hge
      have hj := (occurs_append_right hclosed.1).mp ho
      rcases Nat.lt_or_ge j (Outline.term fragment).length with hlt | hge
      · exact Outline.not_occurs_term hcut hf hlt hj
      · obtain ⟨n, rfl⟩ := Nat.exists_eq_add_of_le hge
        exact not_occurs_space hcut
          ((occurs_append_right (Outline.closed_term hf).1).mp hj)

theorem isBody_derivedTable (d : Dialect) {tableAlias : Text} (ht : Place.Closed t)
    (halias : IsBody tableAlias) : IsBody (d.derivedTable t tableAlias) := by
  have hname := halias.trimEnd
  obtain ⟨opening, hopening, heq⟩ : ∃ opening, opening ∈ [[], " AS".toList] ∧
      d.derivedTable t tableAlias =
        Predicate.parenthesized t ++ (opening ++ ([' '] ++ tableAlias)) := by
    cases hd : d.namesWithAs with
    | false =>
      refine ⟨[], by simp, ?_⟩
      simp [Dialect.derivedTable, Dialect.derivedName, Predicate.parenthesized, hd]
    | true =>
      refine ⟨" AS".toList, by simp, ?_⟩
      simp [Dialect.derivedTable, Dialect.derivedName, Predicate.parenthesized, hd]
  have hplain : ∀ u ∈ [[], " AS".toList], u.all isPlain = true := by decide
  have htrim : Text.trim (d.derivedTable t tableAlias) =
      Predicate.parenthesized t ++ (opening ++ ([' '] ++ Text.trimEnd tableAlias)) := by
    have hne := halias.trimEnd_ne_nil
    have hspace : Text.trimEnd ([' '] ++ tableAlias) = [' '] ++ Text.trimEnd tableAlias :=
      trimEnd_append _ hne
    have hall : Text.trimEnd (opening ++ ([' '] ++ tableAlias)) =
        opening ++ ([' '] ++ Text.trimEnd tableAlias) := by
      rw [trimEnd_append _ (by rw [hspace]; exact List.cons_ne_nil _ _), hspace]
    rw [heq, trim_append (by rw [trim_parenthesized]; exact List.cons_ne_nil _ _)
      (by rw [hall]; simp) (trimEnd_parenthesized t), trim_parenthesized, hall]
  refine ⟨?_, ?_, fun k hk => ?_⟩
  · rw [heq]
    exact ht.parenthesized.append ((Place.closed_of_isPlain (hplain _ hopening)).append
      ((Place.closed_of_isPlain (by decide)).append halias.closed))
  · rw [htrim]
    exact List.cons_ne_nil _ _
  · have hcut := Keyword.mem_cuts_of_mem_clauses k hk
    rw [htrim]
    refine free_parenthesized_append hcut ht fun i ho => ?_
    have hno : ∀ k ∈ Keyword.cuts, ∀ u ∈ [[], " AS".toList], ∀ n < u.length,
        (u ++ [' '])[n]? = some ' ' → (u ++ [' '])[n + 1]? ≠ k[1]? := by decide
    have hfold : ∀ u ∈ [[], " AS".toList], fold (u ++ [' ']) = u ++ [' '] := by decide
    have hsplit : opening ++ ([' '] ++ Text.trimEnd tableAlias) ++ [' '] =
        opening ++ [' '] ++ (Text.trimEnd tableAlias ++ [' ']) := by
      simp only [List.append_assoc]
    rcases Nat.lt_or_ge i opening.length with hlt | hge
    · have hlong := Keyword.one_lt_length k hcut
      have hspace := ho.getElem? hcut
      have hletter := ho.getElem?_fold hlong
      rw [hsplit, fold_append, hfold opening hopening,
        List.getElem?_append_left (by rw [List.length_append, List.length_singleton]; omega)]
        at hspace hletter
      exact hno k hcut opening hopening i hlt hspace hletter
    · obtain ⟨j, rfl⟩ := Nat.exists_eq_add_of_le hge
      rw [List.append_assoc] at ho
      have hj := (occurs_append_right (Place.after_of_isPlain (hplain _ hopening) .start)).mp ho
      exact topLevel?_eq_none_iff.mp (hname.inert.free k hk) j (Nat.zero_le j) hj

end Text

end PagedQuery
