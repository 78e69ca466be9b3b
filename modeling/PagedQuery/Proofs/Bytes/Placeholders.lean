import PagedQuery.Placeholder
import PagedQuery.Proofs.Bytes.Occurrence

/-!
# Placeholders between byte offsets

Keyword search follows quotations byte by byte in the folded text, and placeholders are
counted character by character in the text itself. Where a character begins both are in
the same quotation. A search stops only outside quotes, so the placeholders of a text
that is cut there are those of the parts, and a slice between two such offsets has those
of the text that lie between them.
-/
namespace PagedQuery

namespace Placeholder

/-- The offsets of the question marks outside quotes, in a text that begins in the state `q`
at the offset `o`. -/
def offsetsFrom (q : Quote) (o : ℕ) : Text → List ℕ
  | [] => []
  | c :: t =>
    (if q = .outside ∧ c = '?' then [o] else []) ++ offsetsFrom (q.step c) (o + c.utf8Size) t

def offsets (t : Text) : List ℕ := offsetsFrom .outside 0 t

variable {q : Quote} {t : Text} {i j n o : ℕ}

theorem length_offsetsFrom (q : Quote) (o : ℕ) (t : Text) :
    (offsetsFrom q o t).length = countFrom q t := by
  induction t generalizing q o with
  | nil => rfl
  | cons c t ih =>
    rw [offsetsFrom, List.length_append, ih, countFrom]
    split <;> rfl

theorem offsetsFrom_append (q : Quote) (o : ℕ) (s t : Text) :
    offsetsFrom q o (s ++ t)
      = offsetsFrom q o s ++ offsetsFrom (q.after s) (o + Text.utf8Size s) t := by
  induction s generalizing q o with
  | nil => rfl
  | cons c s ih =>
    rw [List.cons_append, offsetsFrom, offsetsFrom, ih, Text.utf8Size_cons, List.append_assoc,
      Quote.after_cons, Nat.add_assoc]

theorem offsetsFrom_add (q : Quote) (m o : ℕ) (t : Text) :
    offsetsFrom q (m + o) t = (offsetsFrom q o t).map (m + ·) := by
  induction t generalizing q o with
  | nil => rfl
  | cons c t ih =>
    rw [offsetsFrom, offsetsFrom, Nat.add_assoc, ih, List.map_append]
    split <;> rfl

theorem bounds_of_mem_offsetsFrom (h : n ∈ offsetsFrom q o t) :
    o ≤ n ∧ n < o + Text.utf8Size t := by
  induction t generalizing q o with
  | nil => exact absurd h List.not_mem_nil
  | cons c t ih =>
    have hpos := c.utf8Size_pos
    rw [Text.utf8Size_cons]
    rw [offsetsFrom] at h
    cases List.mem_append.mp h with
    | inl hhere =>
      split at hhere
      · rw [List.mem_singleton.mp hhere]
        omega
      · exact absurd hhere List.not_mem_nil
    | inr hrest =>
      have := ih hrest
      omega

/-- A part that begins outside quotes has the placeholders of the whole that lie in it. -/
theorem offsets_part {s : Text} (hs : Quote.Closed s) (m u : Text) :
    (offsets m).map (Text.utf8Size s + ·) = (offsets (s ++ m ++ u)).filter fun n =>
      Text.utf8Size s ≤ n ∧ n < Text.utf8Size (s ++ m) := by
  have hparts : offsets (s ++ m ++ u) = offsetsFrom .outside 0 s
      ++ offsetsFrom .outside (Text.utf8Size s) m
      ++ offsetsFrom (Quote.after .outside (s ++ m)) (Text.utf8Size (s ++ m)) u := by
    rw [offsets, offsetsFrom_append, offsetsFrom_append, Nat.zero_add, Nat.zero_add,
      show Quote.after .outside s = .outside from hs]
  have hfront : (offsetsFrom .outside 0 s).filter
      (fun n => Text.utf8Size s ≤ n ∧ n < Text.utf8Size (s ++ m)) = [] := by
    refine List.filter_eq_nil_iff.mpr fun n hn => ?_
    have := bounds_of_mem_offsetsFrom hn
    simp only [decide_eq_true_eq]
    omega
  have hpart : (offsetsFrom .outside (Text.utf8Size s) m).filter
      (fun n => Text.utf8Size s ≤ n ∧ n < Text.utf8Size (s ++ m))
        = offsetsFrom .outside (Text.utf8Size s) m := by
    refine List.filter_eq_self.mpr fun n hn => ?_
    have := bounds_of_mem_offsetsFrom hn
    rw [Text.utf8Size_append]
    exact decide_eq_true this
  have hrest : (offsetsFrom (Quote.after .outside (s ++ m)) (Text.utf8Size (s ++ m)) u).filter
      (fun n => Text.utf8Size s ≤ n ∧ n < Text.utf8Size (s ++ m)) = [] := by
    refine List.filter_eq_nil_iff.mpr fun n hn => ?_
    have := bounds_of_mem_offsetsFrom hn
    simp only [decide_eq_true_eq]
    omega
  rw [hparts, List.filter_append, List.filter_append, hfront, hpart, hrest, List.append_nil,
    List.nil_append]
  exact (offsetsFrom_add .outside (Text.utf8Size s) 0 m).symm

end Placeholder

namespace Bytes

variable {k t : Text} {start i o : ℕ}

/-- The offset is what a search for keywords that are not empty gives, from some start on. -/
def Returned (t : Text) (o : ℕ) : Prop :=
  (∃ k start, k ≠ [] ∧ find? k start t = some (some o)) ∨
    ∃ keywords start, (∀ k ∈ keywords, k ≠ []) ∧ findFirst? keywords start t = some (some o)

theorem Returned.exists_occursAt (h : Returned t o) : ∃ k, k ≠ [] ∧ OccursAt k t o := by
  cases h with
  | inl hone =>
    obtain ⟨k, start, hne, hsearch⟩ := hone
    obtain ⟨found, hfinds⟩ := Finds.exists_finds (fun i => OccursAt k t i ∧ PlainAt t i) start
    have hfound : found = some o := Option.some.inj ((find?_eq_of_finds hfinds).symm.trans hsearch)
    exact ⟨k, hne, ((hfinds.some_iff o).mp hfound).1.2.1⟩
  | inr hseveral =>
    obtain ⟨keywords, start, hne, hsearch⟩ := hseveral
    obtain ⟨found, hfinds⟩ :=
      Finds.exists_finds (fun i => ∃ k ∈ keywords, OccursAt k t i ∧ PlainAt t i) start
    have hfound : found = some o :=
      Option.some.inj ((findFirst?_eq_of_finds hfinds).symm.trans hsearch)
    obtain ⟨k, hk, hoccurs, -⟩ := ((hfinds.some_iff o).mp hfound).1.2
    exact ⟨k, hne k hk, hoccurs⟩

theorem Returned.exists_offset (h : Returned t o) :
    ∃ i < t.length, o = Text.offset t i ∧ Quote.Closed (t.take i) := by
  obtain ⟨k, hne, hoccurs⟩ := h.exists_occursAt
  obtain ⟨i, rfl, hi, hplace, -⟩ := (occursAt_iff hne).mp hoccurs
  refine ⟨i, hi, rfl, ?_⟩
  have hquote := congrArg Place.quote hplace
  rwa [Place.after_quote] at hquote

/-- Where a character begins, the folded bytes in front leave the quotation open that the
characters in front do. -/
theorem mark_after_folded {s u : Text} (h : Text.cut? t o = some (s, u)) :
    (State.after {} ((folded t).take o)).mark = (Quote.after .outside s).markByte? := by
  rw [after_take_folded, stateAt_of_cut? h, State.ofPlace, Place.after_quote]
  rfl

/-- A search that has found nothing in front of a character goes on there in the quotation
that the characters in front leave open. -/
theorem find?_eq_of_cut? {s u : Text} (h : Text.cut? t o = some (s, u))
    (hno : ∀ found, find? k start t = some (some found) → o ≤ found) :
    find? k start t = findFrom? (folded t) (Text.utf8 k) start
      (Quote.after .outside s).markByte? (Place.after .start s).depth o ((folded t).drop o) := by
  obtain ⟨found, hfinds⟩ := Finds.exists_finds (fun i => OccursAt k t i ∧ PlainAt t i) start
  have hbefore : ∀ j < o, start ≤ j → ¬(OccursAt k t j ∧ PlainAt t j) := by
    intro j hj hstart hoccurs
    cases found with
    | none => exact hfinds.none_iff.mp rfl j hstart hoccurs
    | some i =>
      have hle := ((hfinds.some_iff i).mp rfl).2 ⟨hstart, hoccurs⟩
      exact absurd (hno i (find?_eq_of_finds hfinds)) (by omega)
  have hstate := stateAt_of_cut? h
  rw [find?_eq_resume?_of_lt hbefore, resume?, hstate, State.ofPlace, Place.after_quote]
  rfl

/-- A text cut at an offset that is given back has the placeholders of both parts. -/
theorem Returned.count_eq (h : Returned t o) : ∃ s u, Text.cut? t o = some (s, u) ∧
    Placeholder.count t = Placeholder.count s + Placeholder.count u := by
  obtain ⟨i, -, rfl, hclosed⟩ := h.exists_offset
  refine ⟨_, _, Text.cut?_offset t i, ?_⟩
  rw [← Placeholder.count_append hclosed, List.take_append_drop]

theorem Returned.offsets_slice {p : ℕ} (ho : Returned t o) (hp : Returned t p) (hle : o ≤ p) :
    ∃ m, Text.slice? t o p = some m ∧ (Placeholder.offsets m).map (o + ·)
      = (Placeholder.offsets t).filter fun n => o ≤ n ∧ n < p := by
  obtain ⟨i, -, rfl, hclosed⟩ := ho.exists_offset
  obtain ⟨j, hj, rfl, -⟩ := hp.exists_offset
  have hij : i ≤ j := (Text.offset_le_iff hj).mp hle
  have hfront : t.take i ++ (t.take j).drop i = t.take j := by
    have := List.take_append_drop i (t.take j)
    rwa [List.take_take, Nat.min_eq_left hij] at this
  have hpart := Placeholder.offsets_part hclosed ((t.take j).drop i) (t.drop j)
  rw [hfront, List.take_append_drop] at hpart
  exact ⟨_, Text.slice?_offset t hij, hpart⟩

theorem returned_offset {keywords : List Text} (hks : ∀ k ∈ keywords, k.head? = some ' ')
    {j : ℕ} (h : Text.firstTopLevel? keywords i t = some j ∨
      ∃ k ∈ keywords, Text.topLevel? k i t = some j) : Returned t (Text.offset t j) := by
  have hne : ∀ k ∈ keywords, k ≠ [] := fun k hk =>
    List.ne_nil_of_mem (List.mem_of_head? (hks k hk))
  cases h with
  | inl hfirst =>
    refine .inr ⟨keywords, Text.offset t i, hne, ?_⟩
    rw [findFirst?_offset hks, hfirst, Option.map_some]
  | inr hone =>
    obtain ⟨k, hk, hsearch⟩ := hone
    refine .inl ⟨k, Text.offset t i, hne k hk, ?_⟩
    rw [find?_offset (hks k hk), hsearch, Option.map_some]

/-- Where a character begins, keyword search over the folded bytes and the count of
placeholders over the characters are in the same quotation. So a text cut at an offset that a
search gives back has the placeholders of both parts, and a slice between two such offsets has
those of the text that lie between them, as many as are counted in it. -/
theorem quotations_agree (t : Text) :
    (∀ o s u, Text.cut? t o = some (s, u) →
      (State.after {} ((folded t).take o)).mark = (Quote.after .outside s).markByte? ∧
      ∀ k start, (∀ found, find? k start t = some (some found) → o ≤ found) →
        find? k start t = findFrom? (folded t) (Text.utf8 k) start
          (Quote.after .outside s).markByte? (Place.after .start s).depth o
          ((folded t).drop o)) ∧
    (∀ o, Returned t o → ∃ s u, Text.cut? t o = some (s, u) ∧
      Placeholder.count t = Placeholder.count s + Placeholder.count u) ∧
    (∀ o p, Returned t o → Returned t p → o ≤ p → ∃ m, Text.slice? t o p = some m ∧
      (Placeholder.offsets m).length = Placeholder.count m ∧
      (Placeholder.offsets m).map (o + ·)
        = (Placeholder.offsets t).filter fun n => o ≤ n ∧ n < p) ∧
    ∀ keywords, (∀ k ∈ keywords, k.head? = some ' ') → ∀ i j,
      (Text.firstTopLevel? keywords i t = some j ∨
        ∃ k ∈ keywords, Text.topLevel? k i t = some j) → Returned t (Text.offset t j) := by
  refine ⟨fun o s u hcut => ⟨mark_after_folded hcut, ?_⟩, ?_, ?_, ?_⟩
  · intro k start hno
    exact find?_eq_of_cut? hcut hno
  · intro o ho
    exact ho.count_eq
  · intro o p ho hp hle
    obtain ⟨m, hslice, hoffsets⟩ := ho.offsets_slice hp hle
    exact ⟨m, hslice, Placeholder.length_offsetsFrom .outside 0 m, hoffsets⟩
  · intro keywords hks i j h
    exact returned_offset hks h

/-- The first question mark is quoted, the second one lies in front of the slice, the third
one in it. -/
theorem quotations_agree_between :
    Returned "SELECT 'é?', ? FROM t WHERE a = ? ORDER BY b".toList 15 ∧
      Returned "SELECT 'é?', ? FROM t WHERE a = ? ORDER BY b".toList 34 ∧
      Placeholder.offsets "SELECT 'é?', ? FROM t WHERE a = ? ORDER BY b".toList = [14, 33] ∧
      ∃ m, Text.slice? "SELECT 'é?', ? FROM t WHERE a = ? ORDER BY b".toList 15 34 = some m ∧
        (Placeholder.offsets m).length = Placeholder.count m ∧
        (Placeholder.offsets m).map (15 + ·) = [33] := by
  have hfrom : Returned "SELECT 'é?', ? FROM t WHERE a = ? ORDER BY b".toList 15 :=
    .inl ⟨Keyword.fromClause, 0, by decide, by decide⟩
  have horder : Returned "SELECT 'é?', ? FROM t WHERE a = ? ORDER BY b".toList 34 :=
    .inr ⟨Keyword.trailing, 16, by decide, by decide⟩
  have hoffsets : Placeholder.offsets "SELECT 'é?', ? FROM t WHERE a = ? ORDER BY b".toList
      = [14, 33] := by decide
  obtain ⟨m, hslice, hcount, hbetween⟩ :=
    (quotations_agree "SELECT 'é?', ? FROM t WHERE a = ? ORDER BY b".toList).2.2.1 15 34 hfrom
      horder (by decide)
  rw [hoffsets] at hbetween
  exact ⟨hfrom, horder, hoffsets, m, hslice, hcount, hbetween⟩

end Bytes

end PagedQuery
