import PagedQuery.Proofs.Bytes.Occurrence

/-!
# Keywords at the top level

The bytes of a keyword that occurs are all outside quotes and parentheses, and it begins
where a character of the text does. What closed parentheses hold adds no occurrence and
hides none: those in front stay where they are, and those behind move by its size.
-/
namespace PagedQuery

namespace Bytes

namespace State

theorem step_of_mem {c : Char} (hc : Text.isPlain c = true) {b : UInt8}
    (hb : b ∈ String.utf8EncodeChar c) (p : Place) : (ofPlace p).step b = ofPlace p := by
  by_cases hascii : c.toNat < 128
  · rw [Text.utf8EncodeChar_ascii hascii, List.mem_singleton] at hb
    rw [hb, step_ofPlace hascii, Place.step_of_isPlain hc]
  · exact step_of_le (Text.le_of_mem_utf8EncodeChar (Nat.le_of_not_lt hascii) hb) p

theorem after_of_isPlain {k : Text} (hk : k.all Text.isPlain = true) {bytes : List UInt8}
    (hbytes : bytes ⊆ Text.utf8 k) (p : Place) : (ofPlace p).after bytes = ofPlace p := by
  apply after_of_forall_mem
  intro b hb
  obtain ⟨c, hc, hbyte⟩ := List.mem_flatMap.mp (hbytes hb)
  exact step_of_mem (List.all_eq_true.mp hk c hc) hbyte p

end State

variable {k a t b : Text} {o : ℕ}

theorem OccursAt.stateAt_add (hk : k.all Text.isPlain = true) (h : OccursAt k t o) {n : ℕ}
    (hn : n ≤ Text.utf8Size k) : stateAt t (o + n) = {} := by
  obtain ⟨rest, hrest⟩ := h.2
  have hbytes : ((folded t).drop o).take n = (Text.utf8 k).take n := by
    rw [← hrest, List.take_append_of_le_length (by rwa [Text.length_utf8])]
  rw [← after_take_folded, List.take_add, State.after_append, after_take_folded, h.1, hbytes]
  exact State.after_of_isPlain hk (List.take_subset n _) .start

/-- A keyword occurs only where the text can be cut. -/
theorem OccursAt.exists_cut? (hne : k ≠ []) (h : OccursAt k t o) :
    ∃ s u, Text.cut? t o = some (s, u) := by
  obtain ⟨i, -, rfl⟩ := h.exists_offset hne
  exact ⟨_, _, Text.cut?_offset t i⟩

end Bytes

namespace Text

variable {k a t b : Text} {i : ℕ}

theorem Occurs.of_parenthesis (hk : k.all isPlain = true) (h : Occurs k (a ++ '(' :: b) i)
    (hi : i < a.length) : Occurs k a i := by
  obtain ⟨-, hplace, hprefix⟩ := h
  rw [List.take_append_of_le_length (Nat.le_of_lt hi)] at hplace
  rw [fold_append, List.drop_append_of_le_length (by rw [fold_length]; omega)] at hprefix
  refine ⟨hi, hplace, ?_⟩
  rcases prefix_append_cases hprefix with hin | ⟨hlong, -, u, hu⟩
  · exact hin
  · have hopen : k[((fold a).drop i).length]? = some '(' := by
      rw [← List.head?_drop]
      rw [List.drop_eq_getElem_cons hlong] at hu ⊢
      exact congrArg List.head? hu
    have hplain := List.all_eq_true.mp hk '(' (List.mem_of_getElem? hopen)
    exact absurd hplain (by decide)

/-- Around a closed text in parentheses keywords occur as in the texts on both sides. -/
theorem occurs_parenthesized_iff (hk : Keyword.Spelled k) (ha : Place.Closed a)
    (ht : Place.Closed t) :
    Occurs k (a ++ Predicate.parenthesized t ++ b) i ↔ Occurs k a i ∨
      ∃ j, i = (a ++ Predicate.parenthesized t).length + j ∧ Occurs k b j := by
  have hfront : Place.after .start (a ++ Predicate.parenthesized t) = .start :=
    (ha.append ht.parenthesized).1
  constructor
  · intro h
    rw [List.append_assoc] at h
    rcases Nat.lt_or_ge i a.length with hlt | hge
    · exact .inl (Occurs.of_parenthesis hk.2 h hlt)
    · right
      obtain ⟨m, rfl⟩ := Nat.exists_eq_add_of_le hge
      rw [occurs_append_right ha.1] at h
      rcases Nat.lt_or_ge m (Predicate.parenthesized t).length with hlt | hge
      · exact absurd h (not_occurs_of_lt_parenthesized hk.1 ht hlt)
      · obtain ⟨j, rfl⟩ := Nat.exists_eq_add_of_le hge
        rw [occurs_append_right ht.parenthesized.1] at h
        exact ⟨j, by rw [List.length_append]; omega, h⟩
  · rintro (h | ⟨j, rfl, h⟩)
    · rw [List.append_assoc]
      exact h.append _
    · exact (occurs_append_right hfront).mpr h

end Text

namespace Bytes

variable {k a t b : Text} {o : ℕ}

theorem occursAt_parenthesized_iff (hk : Keyword.Spelled k) (ha : Place.Closed a)
    (ht : Place.Closed t) :
    OccursAt k (a ++ Predicate.parenthesized t ++ b) o ↔ OccursAt k a o ∨
      ∃ m, o = Text.utf8Size (a ++ Predicate.parenthesized t) + m ∧ OccursAt k b m := by
  simp only [occursAt_iff hk.ne_nil]
  constructor
  · rintro ⟨i, rfl, h⟩
    rcases (Text.occurs_parenthesized_iff hk ha ht).mp h with hin | ⟨j, rfl, hbehind⟩
    · left
      rw [List.append_assoc, Text.offset_append_left (Nat.le_of_lt hin.1)]
      exact ⟨i, rfl, hin⟩
    · right
      exact ⟨_, Text.offset_append_right _ b j, j, rfl, hbehind⟩
  · rintro (⟨i, rfl, hin⟩ | ⟨_, rfl, j, rfl, hbehind⟩)
    · refine ⟨i, ?_, (Text.occurs_parenthesized_iff hk ha ht).mpr (.inl hin)⟩
      rw [List.append_assoc, Text.offset_append_left (Nat.le_of_lt hin.1)]
    · refine ⟨_, (Text.offset_append_right _ b j).symm, ?_⟩
      exact (Text.occurs_parenthesized_iff hk ha ht).mpr (.inr ⟨j, rfl, hbehind⟩)

/-- Putting a closed text into parentheses moves what occurs behind them by its size. -/
theorem occursAt_parenthesized_iff_shifted (hk : Keyword.Spelled k) (ha : Place.Closed a)
    (ht : Place.Closed t) :
    OccursAt k (a ++ Predicate.parenthesized t ++ b) o ↔
      ∃ m, OccursAt k (a ++ Predicate.parenthesized [] ++ b) m ∧
        o = if m < Text.utf8Size (a ++ Predicate.parenthesized []) then m
          else m + Text.utf8Size t := by
  have hsize : Text.utf8Size (a ++ Predicate.parenthesized t)
      = Text.utf8Size (a ++ Predicate.parenthesized []) + Text.utf8Size t := by
    simp only [Predicate.parenthesized, Text.utf8Size_append, Text.utf8Size_cons,
      Text.utf8Size_nil]
    omega
  have hfront : ∀ {m}, OccursAt k a m → m < Text.utf8Size (a ++ Predicate.parenthesized []) := by
    intro m hm
    have hlt := (hm.plainAt hk.1).lt_length
    rw [folded, List.length_map, Text.length_utf8] at hlt
    rw [Text.utf8Size_append]
    omega
  rw [occursAt_parenthesized_iff hk ha ht, hsize]
  constructor
  · rintro (hin | ⟨m, rfl, hbehind⟩)
    · refine ⟨o, (occursAt_parenthesized_iff hk ha Place.closed_nil).mpr (.inl hin), ?_⟩
      rw [if_pos (hfront hin)]
    · refine ⟨_, (occursAt_parenthesized_iff hk ha Place.closed_nil).mpr (.inr ⟨m, rfl, hbehind⟩), ?_⟩
      rw [if_neg (by omega)]
      omega
  · rintro ⟨m, hm, rfl⟩
    rcases (occursAt_parenthesized_iff hk ha Place.closed_nil).mp hm with hin | ⟨n, rfl, hbehind⟩
    · rw [if_pos (hfront hin)]
      exact .inl hin
    · rw [if_neg (by omega)]
      exact .inr ⟨n, by omega, hbehind⟩

/-- From any start on, a search for keywords that begin with a space and neither quote nor
nest finds the least offset at which one of them occurs, or nothing where none does; at the
offsets of positions it finds what the search by positions does. Where a keyword occurs the
text can be cut, and all its bytes are outside quotes and parentheses. Around closed
parentheses it occurs as around empty ones, behind them farther on by what they hold. -/
theorem least_occurrence_found {keywords : List Text} (hks : ∀ k ∈ keywords, Keyword.Spelled k) :
    (∀ t start, ∃ found, findFirst? keywords start t = some found ∧
      Finds (fun i => ∃ k ∈ keywords, OccursAt k t i) start found) ∧
    (∀ t i, findFirst? keywords (Text.offset t i) t
      = some ((Text.firstTopLevel? keywords i t).map (Text.offset t))) ∧
    ∀ k ∈ keywords,
      (∀ t start, ∃ found, find? k start t = some found ∧ Finds (OccursAt k t) start found) ∧
      (∀ t i, find? k (Text.offset t i) t
        = some ((Text.topLevel? k i t).map (Text.offset t))) ∧
      (∀ t i, OccursAt k t i →
        (∀ n ≤ Text.utf8Size k, stateAt t (i + n) = {}) ∧
          ∃ s u, Text.cut? t i = some (s, u)) ∧
      ∀ a t b, Place.Closed a → Place.Closed t → ∀ i,
        OccursAt k (a ++ Predicate.parenthesized t ++ b) i ↔
          ∃ j, OccursAt k (a ++ Predicate.parenthesized [] ++ b) j ∧
            i = if j < Text.utf8Size (a ++ Predicate.parenthesized []) then j
              else j + Text.utf8Size t := by
  have hheads : ∀ k ∈ keywords, k.head? = some ' ' := fun k hk => (hks k hk).1
  refine ⟨fun t start => ?_, findFirst?_offset hheads, fun k hk => ⟨fun t start => ?_, ?_, ?_, ?_⟩⟩
  · obtain ⟨found, hfound⟩ := Finds.exists_finds (fun i => ∃ k ∈ keywords, OccursAt k t i) start
    refine ⟨found, findFirst?_eq_of_finds (hfound.congr fun i => ?_), hfound⟩
    refine exists_congr fun k => and_congr_right fun hk => ?_
    rw [and_iff_left_of_imp fun h => h.plainAt (hheads k hk)]
  · obtain ⟨found, hfound⟩ := Finds.exists_finds (OccursAt k t) start
    refine ⟨found, find?_eq_of_finds (hfound.congr fun i => ?_), hfound⟩
    rw [and_iff_left_of_imp fun h => h.plainAt (hheads k hk)]
  · exact find?_offset (hheads k hk)
  · intro t i h
    exact ⟨fun n hn => h.stateAt_add (hks k hk).2 hn, h.exists_cut? (hks k hk).ne_nil⟩
  · intro a t b ha ht i
    exact occursAt_parenthesized_iff_shifted (hks k hk) ha ht

/-- The search begins inside a letter of two bytes and passes over parentheses and quotes. -/
theorem least_occurrence_found_passing :
    (∀ k ∈ Keyword.cuts, Keyword.Spelled k) ∧
      findFirst? Keyword.cuts 1 "é (x FROM y) ' FROM '\nfrom t".toList = some (some 22) ∧
      IsLeast {i | 1 ≤ i ∧ ∃ k ∈ Keyword.cuts,
        OccursAt k "é (x FROM y) ' FROM '\nfrom t".toList i} 22 := by
  have hfound : findFirst? Keyword.cuts 1 "é (x FROM y) ' FROM '\nfrom t".toList
      = some (some 22) := by decide
  obtain ⟨found, hsearch, hfinds⟩ := (least_occurrence_found Keyword.spelled_of_mem_cuts).1
    "é (x FROM y) ' FROM '\nfrom t".toList 1
  obtain rfl : found = some 22 := Option.some.inj (hsearch.symm.trans hfound)
  exact ⟨Keyword.spelled_of_mem_cuts, hfound, (hfinds.some_iff 22).mp rfl⟩

end Bytes

end PagedQuery
