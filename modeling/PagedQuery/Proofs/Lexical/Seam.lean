import PagedQuery.Proofs.Lexical.Occurrence

/-!
# Keywords at the seams of clauses

A statement is a row of clauses, each a keyword and a body. Keywords share the
space between a body and the next clause, and some have a space inside. A body
is free of a keyword when it does not hold it with a space on either side. Then
the keyword does not occur in the clause either, whatever clause comes next,
unless the clause itself begins with it.
-/
namespace PagedQuery

namespace Keyword

def select : Text := "SELECT ".toList

/-- The keywords at which statements are cut. -/
def cuts : List Text := [fromClause, whereClause, or] ++ trailing

/-- What may stand in front of a clause body. -/
def heads : List Text := select :: cuts

theorem mem_cuts_of_mem_trailing {k : Text} (h : k ∈ trailing) : k ∈ cuts :=
  List.mem_append_right _ h

theorem head?_of_mem_cuts : ∀ k ∈ cuts, k.head? = some ' ' := by decide

theorem ne_nil_of_mem_cuts {k : Text} (h : k ∈ cuts) : k ≠ [] := by
  rintro rfl
  exact absurd (head?_of_mem_cuts [] h) (by decide)

theorem one_lt_length : ∀ k ∈ cuts, 1 < k.length := by decide

theorem isPlain_of_mem_heads : ∀ k ∈ heads, k.all Text.isPlain = true := by decide

theorem closed_of_mem_heads {k : Text} (h : k ∈ heads) : Place.Closed k :=
  Place.closed_of_isPlain (isPlain_of_mem_heads k h)

theorem mem_heads_of_mem_cuts {k : Text} (h : k ∈ cuts) : k ∈ heads := List.mem_cons_of_mem _ h

theorem fold_of_mem_heads : ∀ k ∈ heads, Text.fold k = k := by decide

/-- Behind a space inside a keyword stands one of two letters. -/
theorem inner_space : ∀ k ∈ cuts, ∀ n < k.length, 0 < n → n + 1 < k.length → k[n]? = some ' ' →
    k[n + 1]? = some 'B' ∨ k[n + 1]? = some 'U' := by decide

theorem second_letter : ∀ k ∈ cuts, ∀ c, k[1]? = some c → c ≠ 'B' ∧ c ≠ 'U' := by
  intro k hk c hc
  have h : k[1]? ≠ some 'B' ∧ k[1]? ≠ some 'U' :=
    (by decide : ∀ k ∈ cuts, k[1]? ≠ some 'B' ∧ k[1]? ≠ some 'U') k hk
  rw [hc] at h
  exact ⟨fun e => h.1 (congrArg some e), fun e => h.2 (congrArg some e)⟩

theorem not_prefix_drop : ∀ k ∈ cuts, ∀ k' ∈ heads, ∀ n < k'.length - 1, (n ≠ 0 ∨ k ≠ k') →
    ¬k <+: k'.drop n ∧ ¬k'.drop n <+: k := by decide

end Keyword

namespace Text

/-- The text can follow a clause body: it begins with a space, if with anything, and does not go
on as the second half of a keyword. -/
def LeadsOff (t : Text) : Prop :=
  (∀ c, (fold t).head? = some c → c = ' ') ∧ ∀ c, (fold t)[1]? = some c → c ≠ 'B' ∧ c ≠ 'U'

/-- The keyword is not in the text, not even with a space on either side. -/
def Free (keyword t : Text) : Prop := topLevel? keyword 0 (' ' :: t ++ [' ']) = none

instance (keyword t : Text) : Decidable (Free keyword t) := inferInstanceAs (Decidable (_ = _))

theorem leadsOff_nil : LeadsOff [] := by
  constructor <;> intro c hc <;> exact absurd hc (by simp [fold])

theorem leadsOff_of_prefix {k t : Text} (hk : k ∈ Keyword.cuts) (h : k <+: fold t) :
    LeadsOff t := by
  obtain ⟨u, hu⟩ := h
  have hlen := Keyword.one_lt_length k hk
  unfold LeadsOff
  rw [← hu]
  constructor
  · intro c hc
    rw [List.head?_append, Keyword.head?_of_mem_cuts k hk, Option.some_or] at hc
    exact (Option.some.inj hc).symm
  · intro c hc
    rw [List.getElem?_append_left hlen] at hc
    exact Keyword.second_letter k hk c hc

theorem leadsOff_of_clauses {keywords : List Text} {t : Text}
    (hkeywords : ∀ k ∈ keywords, k ∈ Keyword.cuts)
    (h : t = [] ∨ ∃ k ∈ keywords, k <+: fold t) : LeadsOff t := by
  rcases h with rfl | ⟨k, hk, hpre⟩
  · exact leadsOff_nil
  · exact leadsOff_of_prefix (hkeywords k hk) hpre

theorem leadsOff_keyword {k : Text} (hk : k ∈ Keyword.cuts) (t : Text) : LeadsOff (k ++ t) := by
  apply leadsOff_of_prefix hk
  rw [fold_append, Keyword.fold_of_mem_heads k (Keyword.mem_heads_of_mem_cuts hk)]
  exact List.prefix_append _ _

/-- A keyword that begins in front of a seam needs no more than one space behind it. -/
theorem Occurs.of_seam {k s t : Text} (hk : k ∈ Keyword.cuts) (ht : LeadsOff t) {i : Nat}
    (h : Occurs k (s ++ t) i) (hi : i < s.length) : Occurs k (s ++ [' ']) i := by
  obtain ⟨-, hp, hpre⟩ := h
  have hfold : (fold s).length = s.length := fold_length s
  rw [List.take_append_of_le_length (by omega)] at hp
  rw [fold_append, List.drop_append_of_le_length (by omega)] at hpre
  refine ⟨by rw [List.length_append]; omega, ?_, ?_⟩
  · rw [List.take_append_of_le_length (by omega)]
    exact hp
  · rw [fold_append, List.drop_append_of_le_length (by omega)]
    rcases prefix_append_cases hpre with hs | ⟨hl, htake, hdrop⟩
    · exact hs.trans (List.prefix_append _ _)
    · have hn : ((fold s).drop i).length = s.length - i := by rw [List.length_drop, hfold]
      rw [hn] at hl htake hdrop
      have hfirst : (fold t).head? = k[s.length - i]? := by
        obtain ⟨u, hu⟩ := hdrop
        rw [← hu, List.head?_append, List.head?_drop, List.getElem?_eq_getElem hl, Option.some_or]
      have hspace : k[s.length - i]? = some ' ' := by
        rw [List.getElem?_eq_getElem hl]
        exact congrArg some (ht.1 _ (hfirst.trans (List.getElem?_eq_getElem hl)))
      rcases Nat.lt_or_ge (s.length - i + 1) k.length with hlt | hge
      · have hsecond : (fold t)[1]? = k[s.length - i + 1]? := by
          obtain ⟨u, hu⟩ := hdrop
          rw [← hu, List.getElem?_append_left (by rw [List.length_drop]; omega),
            List.getElem?_drop]
        have hletter := Keyword.inner_space k hk (s.length - i) hl (by omega) hlt hspace
        have hnot := ht.2 _ (hsecond.trans (List.getElem?_eq_getElem hlt))
        rw [List.getElem?_eq_getElem hlt, Option.some.injEq, Option.some.injEq] at hletter
        exact absurd hletter (by simp [hnot])
      · have hlast : k.drop (s.length - i) = [' '] := by
          rw [List.drop_eq_getElem_cons hl, List.drop_eq_nil_of_le hge]
          rw [List.getElem?_eq_getElem hl, Option.some.injEq] at hspace
          rw [hspace]
        have hk' : k = (fold s).drop i ++ [' '] := by
          rw [← htake, ← hlast, List.take_append_drop]
        exact ⟨[], by rw [List.append_nil]; exact hk'⟩

theorem not_occurs_of_free {k b t : Text} (hk : k ∈ Keyword.cuts) (hb : Free k b)
    (ht : LeadsOff t) {i : Nat} (hi : i < b.length + 1) : ¬Occurs k (' ' :: b ++ t) i := by
  intro h
  have hs : Occurs k ((' ' :: b) ++ [' ']) i :=
    Occurs.of_seam hk ht h (by rw [List.length_cons]; omega)
  exact topLevel?_eq_none_iff.mp hb i (Nat.zero_le i) hs

/-- A keyword that begins with a space begins at a space. -/
theorem Occurs.space {k t : Text} (hk : k.head? = some ' ') {i : Nat} (h : Occurs k t i) :
    (fold t)[i]? = some ' ' := by
  obtain ⟨-, -, u, hu⟩ := h
  rw [← List.head?_drop, ← hu, List.head?_append, hk, Option.some_or]

theorem Occurs.getElem? {k t : Text} (hk : k ∈ Keyword.cuts) {i : Nat} (h : Occurs k t i) :
    (fold t)[i]? = some ' ' :=
  h.space (Keyword.head?_of_mem_cuts k hk)

/-- A keyword occurs in a clause with a free body only as its head. -/
theorem not_occurs_clause {k k' b t : Text} (hk : k ∈ Keyword.cuts) (hk' : k' ∈ Keyword.heads)
    (hb : Free k b) (ht : LeadsOff t) {i : Nat} (hi : i < k'.length + b.length)
    (hne : i ≠ 0 ∨ k ≠ k') : ¬Occurs k (k' ++ (b ++ t)) i := by
  have hfold : fold k' = k' := Keyword.fold_of_mem_heads k' hk'
  have hclosed := (Keyword.closed_of_mem_heads hk').1
  intro h
  rcases Nat.lt_trichotomy (i + 1) k'.length with hlt | heq | hgt
  · have hpre := h.2.2
    rw [fold_append, hfold, List.drop_append_of_le_length (by omega)] at hpre
    have hno := Keyword.not_prefix_drop k hk k' hk' i (by omega) hne
    rcases prefix_append_cases hpre with hp | ⟨hl, htake, -⟩
    · exact hno.1 hp
    · exact hno.2 (htake ▸ List.take_prefix _ _)
  · have hspace := h.getElem? hk
    rw [fold_append, hfold, List.getElem?_append_left (by omega)] at hspace
    have hsplit : k' = k'.take i ++ [' '] := by
      have hi' : i < k'.length := by omega
      rw [List.getElem?_eq_getElem hi', Option.some.injEq] at hspace
      have hd : k'.drop i = [' '] := by
        rw [List.drop_eq_getElem_cons hi', hspace, List.drop_eq_nil_of_le (by omega)]
      rw [← hd, List.take_append_drop]
    have hplain : (k'.take i).all isPlain = true :=
      List.all_eq_true.mpr fun c hc =>
        List.all_eq_true.mp (Keyword.isPlain_of_mem_heads k' hk') c (List.mem_of_mem_take hc)
    have hlen : (k'.take i).length = i := List.length_take_of_le (by omega)
    rw [hsplit, List.append_assoc] at h
    have h₀ : Occurs k ([' '] ++ (b ++ t)) 0 := by
      refine (occurs_append_right (Place.after_of_isPlain hplain _)).mp ?_
      rw [hlen]
      exact h
    exact not_occurs_of_free hk hb ht (Nat.succ_pos _) h₀
  · obtain ⟨j, rfl⟩ := Nat.exists_eq_add_of_le (show k'.length ≤ i by omega)
    have hj : Occurs k (b ++ t) j := (occurs_append_right hclosed).mp h
    have hj' : Occurs k ([' '] ++ (b ++ t)) ([' '].length + j) :=
      (occurs_append_right (Place.after_of_isPlain (by decide) _)).mpr hj
    exact not_occurs_of_free hk hb ht (by simp only [List.length_singleton]; omega) hj'

/-- No keyword that begins with a space begins in a closed text in parentheses. -/
theorem not_occurs_of_lt_parenthesized {k t rest : Text} (hk : k.head? = some ' ')
    (ht : Place.Closed t) {i : Nat} (hi : i < (Predicate.parenthesized t).length) :
    ¬Occurs k (Predicate.parenthesized t ++ rest) i := by
  intro ho
  rcases Nat.eq_zero_or_pos i with rfl | hpos
  · have hspace : some '(' = some ' ' := ho.space hk
    exact absurd hspace (by decide)
  · have hp := ho.2.1
    rw [List.take_append_of_le_length (by omega)] at hp
    exact Place.after_take_parenthesized_ne_start ht hpos hi hp

theorem not_occurs_parenthesized {k t rest : Text} (hk : k ∈ Keyword.cuts)
    (ht : Place.Closed t) {i : Nat} (hi : i < (Predicate.parenthesized t).length) :
    ¬Occurs k (Predicate.parenthesized t ++ rest) i :=
  not_occurs_of_lt_parenthesized (Keyword.head?_of_mem_cuts k hk) ht hi

/-- The search stops at a clause that begins with the keyword, if nothing in front of it does. -/
theorem topLevel?_append {k s t : Text} {start : Nat} (hk : k ≠ [])
    (hs : Place.after .start s = .start) (hstart : start ≤ s.length) (ht : k <+: fold t)
    (hno : ∀ i, start ≤ i → i < s.length → ¬Occurs k (s ++ t) i) :
    topLevel? k start (s ++ t) = some s.length := by
  have hpos : 0 < t.length := by
    have := ht.length_le
    rw [fold_length] at this
    have := List.length_pos_iff.mpr hk
    omega
  have hhere : Occurs k (s ++ t) (s.length + 0) :=
    (occurs_append_right hs).mpr ⟨hpos, rfl, ht⟩
  exact topLevel?_eq_some_iff.mpr ⟨hhere, hstart, hno⟩

/-- The search for several keywords stops where the rest of a text begins with one of them, or at
the end. -/
theorem firstTopLevel?_append {keywords : List Text} {s t : Text} {start : Nat}
    (hkeywords : ∀ k ∈ keywords, k ∈ Keyword.cuts) (hs : Place.after .start s = .start)
    (hstart : start ≤ s.length)
    (hno : ∀ k ∈ keywords, ∀ i, start ≤ i → i < s.length → ¬Occurs k (s ++ t) i)
    (ht : t = [] ∨ ∃ k ∈ keywords, k <+: fold t) :
    (firstTopLevel? keywords start (s ++ t)).getD (s ++ t).length = s.length := by
  rcases ht with rfl | ⟨k, hk, hp⟩
  · have hnone : firstTopLevel? keywords start (s ++ []) = none := by
      refine firstTopLevel?_eq_none_iff.mpr fun k hk i hle ho => ?_
      exact hno k hk i hle (by have := ho.1; rwa [List.append_nil] at this) ho
    rw [hnone, Option.getD_none, List.append_nil]
  · have hpos : 0 < t.length := by
      have hlen := hp.length_le
      rw [fold_length] at hlen
      have := List.length_pos_iff.mpr (Keyword.ne_nil_of_mem_cuts (hkeywords k hk))
      omega
    have hhere : Occurs k (s ++ t) (s.length + 0) :=
      (occurs_append_right hs).mpr ⟨hpos, rfl, hp⟩
    have hsome : firstTopLevel? keywords start (s ++ t) = some s.length :=
      firstTopLevel?_eq_some_iff.mpr ⟨⟨k, hk, hhere⟩, hstart, hno⟩
    rw [hsome, Option.getD_some]

end Text

end PagedQuery
