import PagedQuery.Proofs.Statement.Body
import PagedQuery.Proofs.Statement.Conjunction
import PagedQuery.Proofs.Substitution

/-!
# Truth of a condition

A condition is read as SQL reads it: the words `OR` at the top level part it into
alternatives, in an alternative the words `AND` part what all must hold, and
parentheses around a whole text have the truth of what is in them. A text that
none of this applies to has the truth that it is given. No text restricts nothing.
-/
namespace PagedQuery

open Text (Word Capitals)

namespace Keyword

def andWord : Text := "AND".toList

def connectives : List Text := [orWord, andWord]

theorem capitals_of_mem_connectives : ∀ word ∈ connectives, Text.Capitals word := by decide

/-- The word with a space on either side. -/
def joiner (word : Text) : Text := ' ' :: (word ++ [' '])

theorem closed_joiner {word : Text} (hword : word ∈ connectives) : Place.Closed (joiner word) := by
  revert word
  decide

theorem word_joiner_iff {word other : Text} (hword : word ∈ connectives)
    (hother : other ∈ connectives) {i : Nat} :
    Word other (joiner word) i ↔ other = word ∧ i = 1 := by
  have hall : ∀ w ∈ connectives, ∀ o ∈ connectives, (joiner w).length ≤ 5 ∧
      ∀ i < 5, Word o (joiner w) i ↔ o = w ∧ i = 1 := by decide +kernel
  obtain ⟨hlength, hwords⟩ := hall word hword other hother
  constructor
  · intro hi
    exact (hwords i (hi.1.1.trans_le hlength)).mp hi
  · rintro ⟨rfl, rfl⟩
    exact (hwords 1 (by decide)).mpr ⟨rfl, rfl⟩

end Keyword

namespace Text

/-- The texts in front of the first place of the word and behind it. -/
def splitWord? (word t : Text) : Option (Text × Text) :=
  ((List.range t.length).find? fun i => decide (Word word t i)).map fun i =>
    (t.take i, t.drop (i + word.length))

def enclosed? : Text → Option Text
  | '(' :: t => if t = t.dropLast ++ [')'] ∧ Place.Closed t.dropLast then some t.dropLast else none
  | _ => none

variable {word s t u v a b : Text} {i : Nat}

theorem splitWord?_eq_some_iff : splitWord? word t = some (a, b) ↔
    ∃ i, Word word t i ∧ (∀ j < i, ¬Word word t j) ∧
      t.take i = a ∧ t.drop (i + word.length) = b := by
  rw [splitWord?, Option.map_eq_some_iff]
  simp only [List.find?_range_eq_some, decide_eq_true_eq, List.mem_range, Bool.not_eq_true',
    decide_eq_false_iff_not, Prod.mk.injEq]
  constructor
  · rintro ⟨i, ⟨hi, -, hfirst⟩, hsides⟩
    exact ⟨i, hi, hfirst, hsides⟩
  · rintro ⟨i, hi, hfirst, hsides⟩
    exact ⟨i, ⟨hi, hi.1.1, hfirst⟩, hsides⟩

theorem splitWord?_eq_none_iff : splitWord? word t = none ↔ ∀ i, ¬Word word t i := by
  rw [splitWord?, Option.map_eq_none_iff, List.find?_range_eq_none]
  simp only [Bool.not_eq_true', decide_eq_false_iff_not]
  exact ⟨fun h i hi => h i hi.1.1 hi, fun h i _ => h i⟩

theorem length_of_splitWord? (hword : word ≠ []) (h : splitWord? word t = some (a, b)) :
    a.length < t.length ∧ b.length < t.length := by
  obtain ⟨i, hi, -, rfl, rfl⟩ := splitWord?_eq_some_iff.mp h
  have hlt := hi.1.1
  have hpos := List.length_pos_iff.mpr hword
  rw [List.length_take, List.length_drop]
  omega

theorem enclosed?_eq_some_iff :
    enclosed? t = some u ↔ t = Predicate.parenthesized u ∧ Place.Closed u := by
  constructor
  · intro h
    unfold enclosed? at h
    split at h
    · rename_i t
      split at h
      · rename_i hclosed
        obtain rfl := Option.some.inj h
        rw [Predicate.parenthesized, List.cons_append, ← hclosed.1]
        exact ⟨rfl, hclosed.2⟩
      · exact absurd h (by simp)
    · exact absurd h (by simp)
  · rintro ⟨rfl, hclosed⟩
    rw [Predicate.parenthesized, List.cons_append, enclosed?, List.dropLast_concat,
      if_pos ⟨rfl, hclosed⟩]

/-- The truth of a condition, where texts that are no conjunction of others have the truth `v`. -/
def evaluate (v : Text → Bool) (t : Text) : Bool :=
  if isAllBlank t then true
  else
    match _hor : splitWord? Keyword.orWord (trim t) with
    | some (a, b) => evaluate v a || evaluate v b
    | none =>
      match _hand : splitWord? Keyword.andWord (trim t) with
      | some (a, b) => evaluate v a && evaluate v b
      | none =>
        match _hin : enclosed? (trim t) with
        | some u => evaluate v u
        | none => v (trim t)
termination_by t.length
decreasing_by
  all_goals have hle := trim_length_le t
  · have := length_of_splitWord? (by decide) _hor
    omega
  · have := length_of_splitWord? (by decide) _hor
    omega
  · have := length_of_splitWord? (by decide) _hand
    omega
  · have := length_of_splitWord? (by decide) _hand
    omega
  · have := congrArg List.length (enclosed?_eq_some_iff.mp _hin).1
    rw [Predicate.parenthesized, List.cons_append, List.length_cons, List.length_append] at this
    omega

variable {truth : Text → Bool}

theorem evaluate_of_isAllBlank (truth : Text → Bool) (h : trim t = []) :
    evaluate truth t = true := by
  rw [evaluate, if_pos (isAllBlank_iff.mpr h)]

theorem evaluate_eq (truth : Text → Bool) (hne : trim t ≠ []) :
    evaluate truth t =
      match splitWord? Keyword.orWord (trim t), splitWord? Keyword.andWord (trim t),
        enclosed? (trim t) with
      | some (a, b), _, _ => evaluate truth a || evaluate truth b
      | none, some (a, b), _ => evaluate truth a && evaluate truth b
      | none, none, some u => evaluate truth u
      | none, none, none => truth (trim t) := by
  rw [evaluate, if_neg (mt isAllBlank_iff.mp hne)]
  split
  · rename_i hor
    rw [hor]
  · rename_i hor
    rw [hor]
    split
    · rename_i hand
      rw [hand]
    · rename_i hand
      rw [hand]
      split
      · rename_i hin
        rw [hin]
      · rename_i hin
        rw [hin]

theorem trim_ne_nil_of_splitWord? (h : splitWord? word (trim t) = some (a, b)) : trim t ≠ [] := by
  intro hnil
  rw [hnil] at h
  exact absurd h (by simp [splitWord?])

theorem evaluate_of_or (h : splitWord? Keyword.orWord (trim t) = some (a, b)) :
    evaluate truth t = (evaluate truth a || evaluate truth b) := by
  rw [evaluate_eq truth (trim_ne_nil_of_splitWord? h), h]

theorem evaluate_of_and (hor : splitWord? Keyword.orWord (trim t) = none)
    (h : splitWord? Keyword.andWord (trim t) = some (a, b)) :
    evaluate truth t = (evaluate truth a && evaluate truth b) := by
  rw [evaluate_eq truth (trim_ne_nil_of_splitWord? h), hor, h]

theorem evaluate_of_enclosed (hor : splitWord? Keyword.orWord (trim t) = none)
    (hand : splitWord? Keyword.andWord (trim t) = none) (h : enclosed? (trim t) = some u) :
    evaluate truth t = evaluate truth u := by
  have hne : trim t ≠ [] := by
    rw [(enclosed?_eq_some_iff.mp h).1]
    exact List.cons_ne_nil _ _
  rw [evaluate_eq truth hne, hor, hand, h]

theorem evaluate_of_none (hne : trim t ≠ []) (hor : splitWord? Keyword.orWord (trim t) = none)
    (hand : splitWord? Keyword.andWord (trim t) = none) (h : enclosed? (trim t) = none) :
    evaluate truth t = truth (trim t) := by
  rw [evaluate_eq truth hne, hor, hand, h]

theorem evaluate_trim (truth : Text → Bool) (t : Text) :
    evaluate truth (trim t) = evaluate truth t := by
  have htrim := trim_trim t
  by_cases hne : trim t = []
  · rw [evaluate_of_isAllBlank truth hne, hne, evaluate_of_isAllBlank truth rfl]
  · rw [evaluate_eq truth hne, evaluate_eq truth (htrim.trans_ne hne), htrim]

theorem evaluate_congr (truth : Text → Bool) (h : trim s = trim t) :
    evaluate truth s = evaluate truth t := by
  rw [← evaluate_trim, h, evaluate_trim]

theorem splitWord?_trim (hword : Capitals word) (ht : Place.Closed t)
    (h : splitWord? word t = some (a, b)) :
    ∃ a' b', splitWord? word (trim t) = some (a', b') ∧ trim a' = trim a ∧ trim b' = trim b := by
  obtain ⟨u, v, heq, hu, hv⟩ := trim_append_blanks t
  obtain ⟨i, hi, hfirst, rfl, rfl⟩ := splitWord?_eq_some_iff.mp h
  have hiff : ∀ i, Word word t i ↔ ∃ j, i = u.length + j ∧ Word word (trim t) j := by
    intro i
    conv_lhs => rw [heq]
    exact word_blanks hword ht.trim.1 hu hv
  obtain ⟨j, rfl, hj⟩ := (hiff i).mp hi
  have hle := hj.1.length_le
  refine ⟨(trim t).take j, (trim t).drop (j + word.length), ?_, ?_, ?_⟩
  · refine splitWord?_eq_some_iff.mpr ⟨j, hj, fun n hn hnw => ?_, rfl, rfl⟩
    exact hfirst (u.length + n) (by omega) ((hiff _).mpr ⟨n, rfl, hnw⟩)
  · conv_rhs => rw [heq, List.append_assoc, List.take_length_add_append,
      List.take_append_of_le_length (by omega), trim_blank_append hu]
  · conv_rhs => rw [heq, List.append_assoc, Nat.add_assoc, List.drop_length_add_append,
      List.drop_append_of_le_length hle, trim_append_blank hv]

theorem not_word_trim (hword : Capitals word) (ht : Place.Closed t) (h : ∀ i, ¬Word word t i)
    (i : Nat) : ¬Word word (trim t) i := by
  obtain ⟨u, v, heq, hu, hv⟩ := trim_append_blanks t
  intro hi
  obtain ⟨j, hj⟩ := (exists_word_blanks hword ht.trim.1 hu hv).mpr ⟨i, hi⟩
  rw [← heq] at hj
  exact h j hj

theorem apart_space (s t : Text) : Apart s (' ' :: t) := by
  right
  rw [List.head?_cons]
  exact bounds_of_isBlank isBlank_space

theorem apart_parenthesized (s t : Text) : Apart s (Predicate.parenthesized t) := by
  right
  rw [Predicate.parenthesized, List.cons_append, List.head?_cons]
  exact (by decide +kernel : Bounds (some '('))

theorem word_join_iff {other : Text} (hword : word ∈ Keyword.connectives)
    (hother : other ∈ Keyword.connectives) (ha : Place.Closed a) :
    Word other (a ++ Keyword.joiner word ++ b) i ↔ Word other a i ∨
      (other = word ∧ i = a.length + 1) ∨
      ∃ j, i = (a ++ Keyword.joiner word).length + j ∧ Word other b j := by
  have hcapitals := Keyword.capitals_of_mem_connectives other hother
  have hfront : Apart a (Keyword.joiner word) := apart_space a _
  have hbehind : Apart (a ++ Keyword.joiner word) b := by
    left
    rw [Keyword.joiner, ← List.cons_append, ← List.append_assoc, List.getLast?_concat]
    exact bounds_of_isBlank isBlank_space
  rw [word_append hcapitals (ha.append (Keyword.closed_joiner hword)).1 hbehind,
    word_append hcapitals ha.1 hfront, or_assoc]
  simp only [Keyword.word_joiner_iff hword hother]
  refine or_congr_right (or_congr_left ?_)
  constructor
  · rintro ⟨j, rfl, hother, rfl⟩
    exact ⟨hother, rfl⟩
  · rintro ⟨hother, rfl⟩
    exact ⟨1, rfl, hother, rfl⟩

/-- A text without the word is the first part of the text that the word joins it to. -/
theorem splitWord?_join (hword : word ∈ Keyword.connectives) (ha : Place.Closed a)
    (hfree : ∀ i, ¬Word word a i) (b : Text) :
    splitWord? word (a ++ Keyword.joiner word ++ b) = some (a ++ [' '], ' ' :: b) := by
  have hiff := fun i => word_join_iff (b := b) (i := i) hword hword ha
  refine splitWord?_eq_some_iff.mpr
    ⟨a.length + 1, (hiff _).mpr (Or.inr (Or.inl ⟨rfl, rfl⟩)), ?_, ?_, ?_⟩
  · intro j hj hw
    rcases (hiff j).mp hw with hw | ⟨-, rfl⟩ | ⟨n, rfl, -⟩
    · exact hfree j hw
    · exact absurd hj (Nat.lt_irrefl _)
    · rw [Keyword.joiner, List.length_append, List.length_cons] at hj
      omega
  · rw [List.append_assoc, List.take_length_add_append]
    rfl
  · rw [List.append_assoc, Nat.add_assoc, List.drop_length_add_append, Keyword.joiner,
      List.cons_append, Nat.add_comm, List.drop_succ_cons, List.append_assoc, List.drop_left]
    rfl

theorem evaluate_splitWord? (truth : Text → Bool) (hword : word ∈ Keyword.connectives)
    (ha : Place.Closed a) (hfree : ∀ i, ¬Word word a i) (hb : Place.Closed b) :
    ∃ a' b', splitWord? word (trim (a ++ Keyword.joiner word ++ b)) = some (a', b') ∧
      evaluate truth a' = evaluate truth a ∧ evaluate truth b' = evaluate truth b := by
  have hspace : [' '].all isBlank = true := by decide
  obtain ⟨a', b', hsplit, ha', hb'⟩ := splitWord?_trim
    (Keyword.capitals_of_mem_connectives word hword)
    ((ha.append (Keyword.closed_joiner hword)).append hb) (splitWord?_join hword ha hfree b)
  exact ⟨a', b', hsplit, evaluate_congr truth (ha'.trans (trim_append_blank hspace a)),
    evaluate_congr truth (hb'.trans (trim_blank_append hspace b))⟩

theorem evaluate_or (truth : Text → Bool) (ha : Place.Closed a)
    (hfree : ∀ i, ¬Word Keyword.orWord a i) (hb : Place.Closed b) :
    evaluate truth (a ++ " OR ".toList ++ b) = (evaluate truth a || evaluate truth b) := by
  obtain ⟨a', b', hsplit, ha', hb'⟩ :=
    evaluate_splitWord? truth (by decide : Keyword.orWord ∈ Keyword.connectives) ha hfree hb
  exact (evaluate_of_or hsplit).trans (by rw [ha', hb'])

theorem evaluate_and (truth : Text → Bool) (ha : Place.Closed a)
    (hfree : ∀ word ∈ Keyword.connectives, ∀ i, ¬Word word a i) (hb : Place.Closed b)
    (hfree' : ∀ i, ¬Word Keyword.orWord b i) :
    evaluate truth (a ++ " AND ".toList ++ b) = (evaluate truth a && evaluate truth b) := by
  have hor : Keyword.orWord ∈ Keyword.connectives := by decide
  have hand : Keyword.andWord ∈ Keyword.connectives := by decide
  obtain ⟨a', b', hsplit, ha', hb'⟩ :=
    evaluate_splitWord? truth hand ha (hfree _ hand) hb
  have hnone :
      splitWord? Keyword.orWord (trim (a ++ Keyword.joiner Keyword.andWord ++ b)) = none := by
    refine splitWord?_eq_none_iff.mpr (not_word_trim (Keyword.capitals_of_mem_connectives _ hor)
      ((ha.append (Keyword.closed_joiner hand)).append hb) fun i hi => ?_)
    rcases (word_join_iff hand hor ha).mp hi with hi | ⟨hne, -⟩ | ⟨j, -, hj⟩
    · exact hfree _ hor i hi
    · exact absurd hne (by decide)
    · exact hfree' j hj
  exact (evaluate_of_and hnone hsplit).trans (by rw [ha', hb'])

theorem evaluate_parenthesized (truth : Text → Bool) (h : Place.Closed t) :
    evaluate truth (Predicate.parenthesized t) = evaluate truth t := by
  have hfree : ∀ word ∈ Keyword.connectives,
      splitWord? word (trim (Predicate.parenthesized t)) = none := by
    intro word hword
    rw [trim_parenthesized]
    exact splitWord?_eq_none_iff.mpr fun i =>
      not_word_parenthesized (Keyword.capitals_of_mem_connectives word hword) h
  refine evaluate_of_enclosed (hfree _ (by decide)) (hfree _ (by decide)) ?_
  rw [trim_parenthesized]
  exact enclosed?_eq_some_iff.mpr ⟨rfl, h⟩

end Text

end PagedQuery
