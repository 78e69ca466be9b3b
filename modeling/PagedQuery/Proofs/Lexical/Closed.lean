import PagedQuery.Build.Predicate
import PagedQuery.Lexical.Search
import PagedQuery.Proofs.Text.Trim

/-!
# Closed text

Folding changes no quotation mark and no parenthesis, so places are the same in
a text and in its folded form. Closed texts are closed under joining, under
parentheses and under cutting at a place of the top level. Closed text inside
parentheses never reaches the top level.
-/
namespace PagedQuery

namespace Text

theorem toUpper_cases (c : Char) :
    c.toUpper = c ∨ 65 ≤ c.toUpper.toNat ∧ c.toUpper.toNat ≤ 90 := by
  by_cases h : 'a'.val ≤ c.val ∧ c.val ≤ 'z'.val
  · right
    have h₁ : 97 ≤ c.val.toNat := h.1
    have h₂ : c.val.toNat ≤ 122 := h.2
    have hu : c.toUpper.toNat = c.val.toNat - 32 := by
      unfold Char.toUpper
      simp only [dif_pos h, Char.toNat, UInt32.toNat_add]
      have : ('A'.val - 'a'.val).toNat = 4294967264 := by decide
      omega
    omega
  · left
    unfold Char.toUpper
    exact dif_neg h

theorem foldChar_eq_iff {m : Char} (hs : isAsciiSpace m = false)
    (hm : m.toNat < 65 ∨ 90 < m.toNat ∧ m.toUpper = m) (c : Char) : foldChar c = m ↔ c = m := by
  have hu : m.toUpper = m := by
    rcases hm with hm | hm
    · rcases toUpper_cases m with h | h
      · exact h
      · have hv : ¬('a'.val ≤ m.val ∧ m.val ≤ 'z'.val) := by
          intro hv
          have : 97 ≤ m.toNat := hv.1
          omega
        unfold Char.toUpper
        exact dif_neg hv
    · exact hm.2
  constructor
  · intro h
    unfold foldChar at h
    split at h
    · subst h
      exact absurd hs (by decide)
    · rcases toUpper_cases c with hc | hc
      · exact hc.symm.trans h
      · rw [h] at hc
        omega
  · rintro rfl
    unfold foldChar
    rw [hs]
    exact hu

theorem foldChar_eq_space_iff (c : Char) : foldChar c = ' ' ↔ isAsciiSpace c = true := by
  constructor
  · intro h
    unfold foldChar at h
    split at h
    · assumption
    · rcases toUpper_cases c with hc | hc
      · rw [← hc, h]
        decide
      · rw [h] at hc
        exact absurd hc (by decide)
  · intro h
    simp [foldChar, h]

def isPlain (c : Char) : Bool := !(['\'', '"', '`', '(', ')'].contains c)

theorem isPlain_of_isDigit {c : Char} (h : c.isDigit = true) : isPlain c = true := by
  by_cases hm : c ∈ ['\'', '"', '`', '(', ')']
  · simp only [List.mem_cons, List.not_mem_nil, or_false] at hm
    rcases hm with rfl | rfl | rfl | rfl | rfl <;> exact absurd h (by decide)
  · simpa [isPlain] using hm

theorem isAsciiSpace_of_isDigit {c : Char} (h : c.isDigit = true) : isAsciiSpace c = false := by
  rw [← Bool.not_eq_true, isAsciiSpace]
  simp only [Bool.or_eq_true, decide_eq_true_eq]
  rintro ((((rfl | rfl) | rfl) | rfl) | rfl) <;> exact absurd h (by decide)

theorem toNat_of_isDigit {c : Char} (h : c.isDigit = true) : 48 ≤ c.toNat ∧ c.toNat ≤ 57 := by
  rw [Char.isDigit, Bool.and_eq_true, decide_eq_true_eq, decide_eq_true_eq] at h
  exact h

theorem foldChar_of_isDigit {c : Char} (h : c.isDigit = true) : foldChar c = c := by
  have hrange := toNat_of_isDigit h
  exact (foldChar_eq_iff (isAsciiSpace_of_isDigit h) (Or.inl (by omega)) c).mpr rfl

theorem isPlain_of_isBlank {c : Char} (h : isBlank c = true) : isPlain c = true := by
  by_cases hm : c ∈ ['\'', '"', '`', '(', ')']
  · simp only [List.mem_cons, List.not_mem_nil, or_false] at hm
    rcases hm with rfl | rfl | rfl | rfl | rfl <;> exact absurd h (by decide)
  · simpa [isPlain] using hm

end Text

namespace Quote

theorem ofMark_foldChar (c : Char) : ofMark (Text.foldChar c) = ofMark c := by
  have h₁ := Text.foldChar_eq_iff (m := '\'') (by decide) (by decide) c
  have h₂ := Text.foldChar_eq_iff (m := '"') (by decide) (by decide) c
  have h₃ := Text.foldChar_eq_iff (m := '`') (by decide) (by decide) c
  unfold ofMark
  split <;> split <;> simp_all

/-- Folding a character does not change what it does to a quotation. -/
theorem step_foldChar (q : Quote) (c : Char) : q.step (Text.foldChar c) = q.step c := by
  have h₁ := Text.foldChar_eq_iff (m := '\'') (by decide) (by decide) c
  have h₂ := Text.foldChar_eq_iff (m := '"') (by decide) (by decide) c
  have h₃ := Text.foldChar_eq_iff (m := '`') (by decide) (by decide) c
  cases q with
  | outside => exact ofMark_foldChar c
  | single => simp only [step, mark?, Option.some.injEq, eq_comm (a := '\''), h₁]
  | double => simp only [step, mark?, Option.some.injEq, eq_comm (a := '"'), h₂]
  | back => simp only [step, mark?, Option.some.injEq, eq_comm (a := '`'), h₃]

@[simp] theorem after_fold (q : Quote) (t : Text) : q.after (Text.fold t) = q.after t := by
  induction t generalizing q with
  | nil => rfl
  | cons c t ih =>
    change after (q.step (Text.foldChar c)) (Text.fold t) = _
    rw [ih, step_foldChar]
    rfl

theorem step_of_isPlain {c : Char} (h : Text.isPlain c = true) (q : Quote) : q.step c = q := by
  have hm : c ∉ ['\'', '"', '`', '(', ')'] := by simpa [Text.isPlain] using h
  simp only [List.mem_cons, List.not_mem_nil, or_false, not_or] at hm
  cases q with
  | outside =>
    simp only [step]
    unfold ofMark
    split <;> simp_all
  | single => simp [step, mark?, eq_comm, hm.1]
  | double => simp [step, mark?, eq_comm, hm.2.1]
  | back => simp [step, mark?, eq_comm, hm.2.2.1]

end Quote

namespace Place

theorem step_foldChar (p : Place) (c : Char) : p.step (Text.foldChar c) = p.step c := by
  have h₁ := Text.foldChar_eq_iff (m := '(') (by decide) (by decide) c
  have h₂ := Text.foldChar_eq_iff (m := ')') (by decide) (by decide) c
  simp only [step, depthAfter, Quote.step_foldChar, h₁, h₂]

@[simp] theorem after_fold (p : Place) (t : Text) : p.after (Text.fold t) = p.after t := by
  induction t generalizing p with
  | nil => rfl
  | cons c t ih =>
    change after (p.step (Text.foldChar c)) (Text.fold t) = _
    rw [ih, step_foldChar]
    rfl

theorem step_of_isPlain {c : Char} (h : Text.isPlain c = true) (p : Place) : p.step c = p := by
  have hm : c ∉ ['\'', '"', '`', '(', ')'] := by simpa [Text.isPlain] using h
  simp only [List.mem_cons, List.not_mem_nil, or_false, not_or] at hm
  simp only [step, Quote.step_of_isPlain h, depthAfter, hm.2.2.2.1, hm.2.2.2.2, if_false, ite_self]

theorem after_of_isPlain {t : Text} (h : t.all Text.isPlain = true) (p : Place) :
    p.after t = p := by
  induction t with
  | nil => rfl
  | cons c t ih =>
    simp only [List.all_cons, Bool.and_eq_true] at h
    rw [after_cons, step_of_isPlain h.1, ih h.2]

theorem balanced_append {p : Place} {s t : Text} :
    Balanced p (s ++ t) ↔ Balanced p s ∧ Balanced (p.after s) t := by
  induction s generalizing p with
  | nil => simp [Balanced]
  | cons c s ih => simp only [List.cons_append, Balanced, ih, after_cons, and_assoc]

theorem balanced_of_isPlain {t : Text} (h : t.all Text.isPlain = true) (p : Place) :
    Balanced p t := by
  induction t generalizing p with
  | nil => trivial
  | cons c t ih =>
    simp only [List.all_cons, Bool.and_eq_true] at h
    refine ⟨?_, ih h.2 _⟩
    rintro ⟨-, -, rfl⟩
    exact absurd h.1 (by decide)

theorem closed_of_isPlain {t : Text} (h : t.all Text.isPlain = true) : Closed t :=
  ⟨after_of_isPlain h start, balanced_of_isPlain h start⟩

/-- A text that is cut where the top level is reached is closed when both parts are. -/
theorem closed_append_iff {s t : Text} (hs : after start s = start) :
    Closed (s ++ t) ↔ Closed s ∧ Closed t := by
  unfold Closed
  rw [after_append, balanced_append, hs]
  constructor
  · rintro ⟨ha, hb, hc⟩
    exact ⟨⟨rfl, hb⟩, ha, hc⟩
  · rintro ⟨⟨-, hb⟩, ha, hc⟩
    exact ⟨ha, hb, hc⟩

theorem Closed.append {s t : Text} (hs : Closed s) (ht : Closed t) : Closed (s ++ t) :=
  (closed_append_iff hs.1).mpr ⟨hs, ht⟩

theorem after_trimEndBy {drop : Char → Bool} (hdrop : ∀ c, drop c = true → Text.isPlain c = true)
    (p : Place) (t : Text) : p.after (Text.trimEndBy drop t) = p.after t := by
  obtain ⟨u, hu, hall⟩ := Text.trimEndBy_append_all drop t
  have hplain : u.all Text.isPlain = true :=
    List.all_eq_true.mpr fun c hc => hdrop c (List.all_eq_true.mp hall c hc)
  rw [hu, after_append, after_of_isPlain hplain, ← hu]

theorem Closed.trimEndBy {drop : Char → Bool}
    (hdrop : ∀ c, drop c = true → Text.isPlain c = true) {t : Text} (h : Closed t) :
    Closed (Text.trimEndBy drop t) := by
  obtain ⟨u, hu, -⟩ := Text.trimEndBy_append_all drop t
  have hs : after start (Text.trimEndBy drop t) = start := (after_trimEndBy hdrop start t).trans h.1
  rw [hu] at h
  exact ((closed_append_iff hs).mp h).1

theorem Closed.trimEnd {t : Text} (h : Closed t) : Closed (Text.trimEnd t) :=
  h.trimEndBy fun _ => Text.isPlain_of_isBlank

theorem Closed.trim {t : Text} (h : Closed t) : Closed (Text.trim t) := by
  refine Closed.trimEndBy (fun _ => Text.isPlain_of_isBlank) ?_
  have hplain : (t.takeWhile Text.isBlank).all Text.isPlain = true :=
    List.all_eq_true.mpr fun c hc =>
      Text.isPlain_of_isBlank (List.all_eq_true.mp List.all_takeWhile c hc)
  rw [← List.takeWhile_append_dropWhile (p := Text.isBlank) (l := t)] at h
  exact ((closed_append_iff (after_of_isPlain hplain start)).mp h).2

/-- The place of a character, one parenthesis deeper. -/
def deeper (p : Place) : Place := { p with depth := p.depth + 1 }

theorem step_deeper {p : Place} {c : Char}
    (h : ¬(p.quote = .outside ∧ p.depth = 0 ∧ c = ')')) : p.deeper.step c = (p.step c).deeper := by
  simp only [deeper, step, depthAfter]
  by_cases hq : p.quote = .outside
  · simp only [hq, if_true]
    by_cases ho : c = '('
    · simp [ho]
    · by_cases hc : c = ')'
      · have hd : p.depth ≠ 0 := fun hd => h ⟨hq, hd, hc⟩
        have hne : ¬(')' = '(') := by decide
        simp only [hc, hne, if_false, if_true, Place.mk.injEq, true_and]
        omega
      · simp [ho, hc]
  · simp [hq]

/-- Text that closes nothing it did not open runs the same way inside a parenthesis. -/
theorem after_deeper {p : Place} {t : Text} (h : Balanced p t) :
    p.deeper.after t = (p.after t).deeper := by
  induction t generalizing p with
  | nil => rfl
  | cons c t ih => rw [after_cons, after_cons, step_deeper h.1, ih h.2]

theorem balanced_deeper {p : Place} {t : Text} (h : Balanced p t) : Balanced p.deeper t := by
  induction t generalizing p with
  | nil => trivial
  | cons c t ih =>
    refine ⟨fun hc => absurd hc.2.1 (Nat.succ_ne_zero _), ?_⟩
    rw [step_deeper h.1]
    exact ih h.2

theorem Closed.parenthesized {t : Text} (h : Closed t) : Closed (Predicate.parenthesized t) := by
  have hopen : start.step '(' = start.deeper := rfl
  have hclose : start.deeper.step ')' = start := rfl
  constructor
  · rw [Predicate.parenthesized, List.cons_append, after_cons, hopen, after_append,
      after_deeper h.2, h.1, after_cons, hclose]
    rfl
  · rw [Predicate.parenthesized, List.cons_append]
    refine ⟨by decide, ?_⟩
    rw [hopen, balanced_append, after_deeper h.2, h.1]
    exact ⟨balanced_deeper h.2, by decide⟩

theorem after_take_parenthesized_ne_start {t : Text} (h : Closed t) {i : Nat} (h₀ : 0 < i)
    (hi : i < (Predicate.parenthesized t).length) :
    after start ((Predicate.parenthesized t).take i) ≠ start := by
  obtain ⟨j, rfl⟩ := Nat.exists_eq_add_of_lt h₀
  have hj : j ≤ t.length := by
    simp only [Predicate.parenthesized, List.cons_append, List.length_cons, List.length_append,
      List.length_nil] at hi
    omega
  have hb : Balanced start (t.take j) := by
    have hd := h.2
    rw [← List.take_append_drop j t, balanced_append] at hd
    exact hd.1
  have htake : (Predicate.parenthesized t).take (0 + j + 1) = '(' :: t.take j := by
    rw [Predicate.parenthesized, List.cons_append, Nat.zero_add, List.take_succ_cons,
      List.take_append_of_le_length hj]
  rw [htake, after_cons]
  intro hd
  have := congrArg depth ((after_deeper hb).symm.trans hd)
  exact absurd this (Nat.succ_ne_zero _)

end Place

end PagedQuery
