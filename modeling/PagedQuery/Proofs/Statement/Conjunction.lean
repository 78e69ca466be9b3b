import PagedQuery.Proofs.Lexical.Word
import PagedQuery.Proofs.Statement.Closure

/-!
# Conjoined filters

A filter restricts every row of a statement when its fragment is conjoined to the
whole condition: there is one `WHERE`, and behind it stands `B AND (f)` with no
`OR` in `B`, up to the clauses that follow a condition. Statements are searched
for ` WHERE ` and ` OR ` with spaces around them, though white space, parentheses
and quotes bound a word alike. So the filter is conjoined exactly when a `WHERE`
and an `OR` that are there are also found.
-/
namespace PagedQuery

open Text (Word Occurs Bounds Apart Capitals)

namespace Keyword

def whereWord : Text := "WHERE".toList
def orWord : Text := "OR".toList

end Keyword

namespace Clauses

variable {t : Text} {clauses : Clauses}

/-- The condition that is found, or the body of `FROM` when none is found. -/
def condition (t : Text) (clauses : Clauses) : Text :=
  Text.trim ((t.take clauses.tailAt).drop clauses.bodyAt)

end Clauses

namespace Statement

/-- What stands behind a `WHERE` at position `i`, up to the clauses that follow a condition. -/
def restriction (t : Text) (i : Nat) : Text :=
  (t.take ((Text.firstTopLevel? Keyword.trailing (i + 6) t).getD t.length)).drop (i + 5)

/-- The text has one `WHERE`, and its condition is `B AND (fragment)` with no `OR` in `B`. -/
def Conjoined (t fragment : Text) : Prop :=
  ∃ i, (∀ j, Word Keyword.whereWord t j ↔ j = i) ∧
    ∃ condition, restriction t i = condition ++ Outline.term fragment ∧
      ∀ j, ¬Word Keyword.orWord condition j

/-- A single statement has no second `WHERE`, and no clause keyword ends its condition without a
clause of its own. -/
structure IsSingle (t : Text) (clauses : Clauses) : Prop where
  one_where : ∀ i j, Word Keyword.whereWord t i → Word Keyword.whereWord t j → i = j
  complete : ∀ k ∈ Keyword.trailing, ∀ i, clauses.bodyAt ≤ i →
    ¬Occurs k (Text.trimEnd (t.take clauses.tailAt) ++ [' ']) i

section

variable {front rest fragment : Text} {i : Nat}

/-- Behind the `WHERE` of a restricted text stands its condition with the term of the fragment. -/
theorem restriction_eq (hfront : Place.after .start front = .start) (hf : Place.Closed fragment)
    (hrest : rest = [] ∨ ∃ k ∈ Keyword.trailing, k <+: Text.fold rest) (hi : i + 5 ≤ front.length)
    (hno : ∀ k ∈ Keyword.trailing, ∀ j, i + 6 ≤ j → ¬Occurs k (front ++ [' ']) j) :
    restriction (front ++ Outline.term fragment ++ rest) i =
      front.drop (i + 5) ++ Outline.term fragment := by
  have hclosed : Place.after .start (front ++ Outline.term fragment) = .start := by
    rw [Place.after_append, hfront, (Outline.closed_term hf).1]
  have hlong : 5 < (Outline.term fragment).length := by
    simp [Outline.term, Predicate.parenthesized]
  have hno' : ∀ k ∈ Keyword.trailing, ∀ j, i + 6 ≤ j → j < (front ++ Outline.term fragment).length →
      ¬Occurs k (front ++ Outline.term fragment ++ rest) j := by
    intro k hk j hj hlt ho
    have hcut := Keyword.mem_cuts_of_mem_trailing hk
    rw [List.append_assoc] at ho
    rcases Nat.lt_or_ge j front.length with hlt' | hge
    · exact hno k hk j hj (ho.of_seam hcut (Outline.leadsOff_term fragment rest) hlt')
    · obtain ⟨n, rfl⟩ := Nat.exists_eq_add_of_le hge
      rw [List.length_append] at hlt
      exact Outline.not_occurs_term hcut hf (by omega) ((Text.occurs_append_right hfront).mp ho)
  have htail : (Text.firstTopLevel? Keyword.trailing (i + 6)
      (front ++ Outline.term fragment ++ rest)).getD
        (front ++ Outline.term fragment ++ rest).length =
      (front ++ Outline.term fragment).length := by
    refine Text.firstTopLevel?_append (fun k hk => Keyword.mem_cuts_of_mem_trailing hk) hclosed ?_
      hno' hrest
    rw [List.length_append]
    omega
  rw [restriction, htail, List.take_left, List.drop_append_of_le_length hi]

theorem bounds_of_rest (hrest : rest = [] ∨ ∃ k ∈ Keyword.trailing, k <+: Text.fold rest) :
    Bounds rest.head? := by
  rcases hrest with rfl | ⟨k, hk, u, hu⟩
  · exact Text.bounds_none
  · rw [List.head?_eq_getElem?]
    refine Text.bounds_of_fold ?_
    rw [← hu, ← List.head?_eq_getElem?, List.head?_append,
      Keyword.head?_of_mem_cuts k (Keyword.mem_cuts_of_mem_trailing hk), Option.some_or]

theorem word_where_restricted (hfront : Place.after .start front = .start)
    (hf : Place.Closed fragment) (hrest : Bounds rest.head?) :
    Word Keyword.whereWord (front ++ Outline.term fragment ++ rest) i ↔
      Word Keyword.whereWord front i ∨
        ∃ j, i = (front ++ Outline.term fragment).length + j ∧ Word Keyword.whereWord rest j := by
  have hw : Capitals Keyword.whereWord := by decide
  have hclosed : Place.after .start (front ++ Outline.term fragment) = .start := by
    rw [Place.after_append, hfront, (Outline.closed_term hf).1]
  have hspace : Bounds (Outline.term fragment).head? := Text.bounds_of_foldChar rfl
  have hterm : ∀ j, ¬Word Keyword.whereWord (Outline.term fragment) j := by
    intro j h
    have hblank : Bounds " AND ".toList.getLast? :=
      (Text.bounds_of_foldChar rfl : Bounds (some ' '))
    rw [Outline.term, Text.word_append hw (by decide) (Or.inl hblank)] at h
    rcases h with h | ⟨n, -, h⟩
    · have hand : ∀ n < 5, ¬Word Keyword.whereWord " AND ".toList n := by decide
      exact hand j h.1.1 h
    · exact Text.not_word_parenthesized hw hf h
  rw [Text.word_append hw hclosed (Or.inr hrest), Text.word_append hw hfront (Or.inr hspace)]
  constructor
  · rintro ((h | ⟨j, -, h⟩) | h)
    · exact Or.inl h
    · exact absurd h (hterm j)
    · exact Or.inr h
  · rintro (h | h)
    · exact Or.inl (Or.inl h)
    · exact Or.inr h

end

section

variable {t fragment : Text} {clauses : Clauses}

/-- The text up to the tail is its trimmed form with blanks behind it. -/
theorem take_tailAt (t : Text) (clauses : Clauses) :
    ∃ u, t = Text.trimEnd (t.take clauses.tailAt) ++ (u ++ t.drop clauses.tailAt) ∧
      t.take clauses.tailAt = Text.trimEnd (t.take clauses.tailAt) ++ u ∧
      u.all Text.isBlank = true := by
  obtain ⟨u, hu, hall⟩ := Text.trimEnd_append_blanks (t.take clauses.tailAt)
  refine ⟨u, ?_, hu, hall⟩
  rw [← List.append_assoc, ← hu, List.take_append_drop]

theorem after_front (hclauses : Clauses.of? t = some clauses) (ht : Place.Closed t) :
    Place.after .start (Text.trimEnd (t.take clauses.tailAt)) = .start := by
  rw [Text.trimEnd, Place.after_trimEndBy fun _ => Text.isPlain_of_isBlank]
  exact (Clauses.tail_spec hclauses ht.1).1

theorem word_iff {word : Text} {i : Nat} (hword : Capitals word)
    (hclauses : Clauses.of? t = some clauses) (ht : Place.Closed t) :
    Word word t i ↔ Word word (Text.trimEnd (t.take clauses.tailAt)) i ∨
      ∃ j, i = clauses.tailAt + j ∧ Word word (t.drop clauses.tailAt) j := by
  obtain ⟨u, -, hu, hall⟩ := take_tailAt t clauses
  obtain ⟨hstart, hrest⟩ := Clauses.tail_spec hclauses ht.1
  have hlen : (t.take clauses.tailAt).length = clauses.tailAt :=
    List.length_take_of_le (Clauses.tailAt_le hclauses)
  have hhead : Bounds u.head? := by
    cases u with
    | nil => exact Text.bounds_none
    | cons c u =>
      rw [List.all_cons, Bool.and_eq_true] at hall
      exact Text.bounds_of_isBlank hall.1
  have hfront : Word word (t.take clauses.tailAt) i ↔
      Word word (Text.trimEnd (t.take clauses.tailAt)) i := by
    conv_lhs => rw [hu]
    rw [Text.word_append hword (after_front hclauses ht) (Or.inr hhead)]
    constructor
    · rintro (h | ⟨j, -, h⟩)
      · exact h
      · exact absurd h (Text.not_word_of_isBlank hword hall)
    · exact Or.inl
  conv_lhs => rw [← List.take_append_drop clauses.tailAt t]
  rw [Text.word_append hword hstart (Or.inr (bounds_of_rest hrest)), hfront, hlen]

/-- The neutral condition adds one `WHERE` to a text. -/
theorem word_where_neutral {front : Text} (hstart : Place.after .start front = .start) (j : Nat) :
    Word Keyword.whereWord (front ++ neutralWhere) j ↔
      Word Keyword.whereWord front j ∨ j = front.length + 1 := by
  have hneutral : ∀ j, Word Keyword.whereWord neutralWhere j ↔ j = 1 := by
    intro j
    have hall : ∀ n < 10, Word Keyword.whereWord neutralWhere n ↔ n = 1 := by decide +kernel
    constructor
    · intro h
      exact (hall j h.1.1).mp h
    · intro h
      rw [h]
      exact (hall 1 (by decide)).mpr rfl
  have hblank : Bounds neutralWhere.head? := (Text.bounds_of_foldChar rfl : Bounds (some ' '))
  rw [Text.word_append (by decide) hstart (Or.inr hblank)]
  simp only [hneutral, exists_eq_right]

theorem restriction_neutral {front rest : Text} (hstart : Place.after .start front = .start)
    (hf : Place.Closed fragment)
    (hrest : rest = [] ∨ ∃ k ∈ Keyword.trailing, k <+: Text.fold rest) :
    restriction (front ++ neutralWhere ++ Outline.term fragment ++ rest) (front.length + 1) =
      " 1=1".toList ++ Outline.term fragment := by
  have hfront : Place.after .start (front ++ neutralWhere) = .start := by
    rw [Place.after_append, hstart]
    exact Place.after_of_isPlain (by decide) _
  have hlen : (front ++ neutralWhere).length = front.length + 10 := by
    rw [List.length_append]
    rfl
  have hdrop : (front ++ neutralWhere).drop (front.length + 6) = " 1=1".toList := by
    rw [List.drop_length_add_append]
    decide
  rw [restriction_eq hfront hf hrest (by omega)]
  · rw [← hdrop]
  · intro k hk j hj ho
    obtain ⟨n, rfl⟩ := Nat.exists_eq_add_of_le (show front.length ≤ j by omega)
    rw [List.append_assoc] at ho
    have hno : ∀ k ∈ Keyword.trailing, ∀ n < 11, 7 ≤ n →
        ¬Occurs k (neutralWhere ++ [' ']) n := by decide
    have hn := (Text.occurs_append_right hstart).mp ho
    exact hno k hk n hn.1 (by omega) hn

theorem conjoined_of_none (hclauses : Clauses.of? t = some clauses) (ht : Place.Closed t)
    (hf : Place.Closed fragment) :
    Conjoined (Text.trimEnd (t.take clauses.tailAt) ++ neutralWhere ++ Outline.term fragment ++
      t.drop clauses.tailAt) fragment ↔ ¬∃ i, Word Keyword.whereWord t i := by
  have hw : Capitals Keyword.whereWord := by decide
  obtain ⟨-, hrest⟩ := Clauses.tail_spec hclauses ht.1
  have hstart := after_front hclauses ht
  have hword := fun i => word_iff (i := i) hw hclauses ht
  generalize Text.trimEnd (t.take clauses.tailAt) = front at hstart hword ⊢
  generalize t.drop clauses.tailAt = rest at hrest hword ⊢
  have hfront : Place.after .start (front ++ neutralWhere) = .start := by
    rw [Place.after_append, hstart]
    exact Place.after_of_isPlain (by decide) _
  have hall : ∀ j, Word Keyword.whereWord
      (front ++ neutralWhere ++ Outline.term fragment ++ rest) j ↔
        (Word Keyword.whereWord front j ∨ j = front.length + 1) ∨
          ∃ n, j = (front ++ neutralWhere ++ Outline.term fragment).length + n ∧
            Word Keyword.whereWord rest n := by
    intro j
    rw [word_where_restricted hfront hf (bounds_of_rest hrest), word_where_neutral hstart]
  constructor
  · intro hconjoined hexists
    obtain ⟨i, honly, -⟩ := hconjoined
    obtain ⟨j, hj⟩ := hexists
    have hi := (honly (front.length + 1)).mp ((hall _).mpr (Or.inl (Or.inr rfl)))
    rcases (hword j).mp hj with h | ⟨n, -, h⟩
    · have heq := (honly j).mp ((hall j).mpr (Or.inl (Or.inl h)))
      have := h.1.1
      omega
    · have heq := (honly _).mp ((hall _).mpr (Or.inr ⟨n, rfl, h⟩))
      simp only [List.length_append] at heq
      have : neutralWhere.length = 10 := by decide
      omega
  · intro hnone
    refine ⟨front.length + 1, fun j => ?_, " 1=1".toList, restriction_neutral hstart hf hrest, ?_⟩
    · rw [hall j]
      constructor
      · intro h
        rcases h with (h | h) | ⟨n, -, h⟩
        · exact absurd ⟨j, (hword j).mpr (Or.inl h)⟩ hnone
        · exact h
        · exact absurd ⟨_, (hword _).mpr (Or.inr ⟨n, rfl, h⟩)⟩ hnone
      · exact fun h => Or.inl (Or.inr h)
    · intro j h
      have hno : ∀ n < 4, ¬Word Keyword.orWord " 1=1".toList n := by decide
      exact hno j h.1.1 h

/-- A `WHERE` that is found is the only one of a single statement, in front of its tail. -/
theorem where_only (hclauses : Clauses.of? t = some clauses) (hsingle : IsSingle t clauses)
    {w : Nat} (hw : clauses.whereAt = some w) :
    Word Keyword.whereWord t (w + 1) ∧ (∀ i, Word Keyword.whereWord t i → i = w + 1) ∧
      clauses.bodyAt = w + 7 ∧ w + 7 ≤ clauses.tailAt := by
  obtain ⟨ho, hbody⟩ := Clauses.occurs_whereAt hclauses hw
  have hle := Clauses.bodyAt_le_tailAt hclauses hw
  have hword : Word Keyword.whereWord t (w + 1) := Text.word_of_occurs ho
  have hlen : Keyword.whereClause.length = 7 := by decide
  exact ⟨hword, fun i hi => hsingle.one_where i (w + 1) hi hword, by omega, by omega⟩

theorem condition_closed (hclauses : Clauses.of? t = some clauses) (ht : Place.Closed t) {w : Nat}
    (hw : clauses.whereAt = some w) : Place.Closed (clauses.condition t) :=
  (Clauses.body_closed hclauses ht hw).trim

/-- The text up to the tail with the condition in parentheses. -/
def guarded (t : Text) (clauses : Clauses) (w : Nat) : Text :=
  t.take w ++ Keyword.whereClause ++ Predicate.parenthesized (clauses.condition t)

theorem length_take_of_where (hclauses : Clauses.of? t = some clauses) {w : Nat}
    (hw : clauses.whereAt = some w) : (t.take w).length = w :=
  List.length_take_of_le (Nat.le_of_lt (Clauses.occurs_whereAt hclauses hw).1.1)

theorem after_guarded (hclauses : Clauses.of? t = some clauses) (ht : Place.Closed t) {w : Nat}
    (hw : clauses.whereAt = some w) : Place.after .start (guarded t clauses w) = .start := by
  obtain ⟨ho, -⟩ := Clauses.occurs_whereAt hclauses hw
  have hopen : Place.Closed (Keyword.whereClause ++
      Predicate.parenthesized (clauses.condition t)) :=
    (Keyword.closed_of_mem_heads (by decide)).append (condition_closed hclauses ht hw).parenthesized
  rw [guarded, List.append_assoc, Place.after_append, ho.2.1, hopen.1]

theorem le_length_guarded (hclauses : Clauses.of? t = some clauses) {w : Nat}
    (hw : clauses.whereAt = some w) : w + 8 ≤ (guarded t clauses w).length := by
  have hlen := length_take_of_where hclauses hw
  have hkeyword : Keyword.whereClause.length = 7 := by decide
  simp only [guarded, List.length_append, hlen, Predicate.parenthesized, List.length_cons]
  omega

theorem not_word_take (hclauses : Clauses.of? t = some clauses) (hsingle : IsSingle t clauses)
    {w : Nat} (hw : clauses.whereAt = some w) (n : Nat) :
    ¬Word Keyword.whereWord (t.take w) n := by
  intro h
  obtain ⟨-, honly, -, -⟩ := where_only hclauses hsingle hw
  obtain ⟨ho, -⟩ := Clauses.occurs_whereAt hclauses hw
  have hkeywordAt : Bounds (t.drop w).head? := by
    rw [List.head?_drop]
    exact Text.bounds_of_fold (ho.getElem? (by decide))
  have hn : Word Keyword.whereWord (t.take w ++ t.drop w) n :=
    (Text.word_append (by decide) ho.2.1 (Or.inr hkeywordAt)).mpr (Or.inl h)
  rw [List.take_append_drop] at hn
  have heq := honly n hn
  have hlt := h.1.1
  have hlen := length_take_of_where hclauses hw
  omega

/-- A condition in parentheses adds no `WHERE`. -/
theorem word_where_guarded (hclauses : Clauses.of? t = some clauses) (ht : Place.Closed t)
    (hsingle : IsSingle t clauses) {w : Nat} (hw : clauses.whereAt = some w) (j : Nat) :
    Word Keyword.whereWord (guarded t clauses w) j ↔ j = w + 1 := by
  have hwhere : Capitals Keyword.whereWord := by decide
  obtain ⟨ho, -⟩ := Clauses.occurs_whereAt hclauses hw
  have hspace : Bounds (some ' ') := Text.bounds_of_foldChar rfl
  have hkeyword : ∀ n, Word Keyword.whereWord (Keyword.whereClause ++
      Predicate.parenthesized (clauses.condition t)) n ↔ n = 1 := by
    intro n
    have hall : ∀ n < 7, Word Keyword.whereWord Keyword.whereClause n ↔ n = 1 := by
      decide +kernel
    have hlast : Bounds Keyword.whereClause.getLast? := hspace
    rw [Text.word_append hwhere (by decide) (Or.inl hlast)]
    constructor
    · intro h
      rcases h with h | ⟨m, -, h⟩
      · exact (hall n h.1.1).mp h
      · exact absurd h (Text.not_word_parenthesized hwhere (condition_closed hclauses ht hw))
    · intro h
      rw [h]
      exact Or.inl ((hall 1 (by decide)).mpr rfl)
  have hhead : Bounds (Keyword.whereClause ++
      Predicate.parenthesized (clauses.condition t)).head? := hspace
  rw [guarded, List.append_assoc, Text.word_append hwhere ho.2.1 (Or.inr hhead),
    length_take_of_where hclauses hw]
  simp only [not_word_take hclauses hsingle hw, false_or, hkeyword, exists_eq_right]

theorem not_occurs_guarded (hclauses : Clauses.of? t = some clauses) (ht : Place.Closed t)
    {w : Nat} (hw : clauses.whereAt = some w) {k : Text} (hk : k ∈ Keyword.trailing) {j : Nat}
    (hj : w + 7 ≤ j) : ¬Occurs k (guarded t clauses w ++ [' ']) j := by
  intro ho
  obtain ⟨n, rfl⟩ := Nat.exists_eq_add_of_le hj
  have hcut := Keyword.mem_cuts_of_mem_trailing hk
  have hkeyword : Place.after .start (t.take w ++ Keyword.whereClause) = .start := by
    rw [Place.after_append, (Clauses.occurs_whereAt hclauses hw).1.2.1]
    exact Place.after_of_isPlain (by decide) _
  have hlen : (t.take w ++ Keyword.whereClause).length = w + 7 := by
    rw [List.length_append, length_take_of_where hclauses hw]
    rfl
  rw [guarded, List.append_assoc, ← hlen] at ho
  have hn := (Text.occurs_append_right hkeyword).mp ho
  rcases Nat.lt_or_ge n (Predicate.parenthesized (clauses.condition t)).length with hlt | hge
  · exact Text.not_occurs_parenthesized hcut (condition_closed hclauses ht hw) hlt hn
  · have hle := hn.length_le
    have hlong := Keyword.one_lt_length k hcut
    rw [List.length_append, List.length_singleton] at hle
    omega

/-- A condition whose `OR` is found is put in parentheses, and the filter is conjoined to it. -/
theorem conjoined_of_or (hclauses : Clauses.of? t = some clauses) (ht : Place.Closed t)
    (hf : Place.Closed fragment) (hsingle : IsSingle t clauses) {w : Nat}
    (hw : clauses.whereAt = some w) :
    Conjoined (guarded t clauses w ++ Outline.term fragment ++ t.drop clauses.tailAt)
      fragment := by
  have hwhere : Capitals Keyword.whereWord := by decide
  have hor : Capitals Keyword.orWord := by decide
  obtain ⟨-, honly, hbody, hle⟩ := where_only hclauses hsingle hw
  obtain ⟨-, hrest⟩ := Clauses.tail_spec hclauses ht.1
  have hfront := after_guarded hclauses ht hw
  have hlong := le_length_guarded hclauses hw
  refine ⟨w + 1, fun j => ?_, [' '] ++ Predicate.parenthesized (clauses.condition t), ?_, ?_⟩
  · rw [word_where_restricted hfront hf (bounds_of_rest hrest),
      word_where_guarded hclauses ht hsingle hw]
    constructor
    · intro h
      rcases h with h | ⟨n, -, h⟩
      · exact h
      · have hn := (word_iff hwhere hclauses ht).mpr (Or.inr ⟨n, rfl, h⟩)
        have := honly _ hn
        omega
    · exact Or.inl
  · have hdrop : (guarded t clauses w).drop (w + 1 + 5) =
        [' '] ++ Predicate.parenthesized (clauses.condition t) := by
      have hlen := length_take_of_where hclauses hw
      rw [guarded, List.append_assoc, List.drop_append, hlen, List.drop_eq_nil_of_le (by omega),
        show w + 1 + 5 - w = 6 by omega]
      rfl
    rw [restriction_eq hfront hf hrest (by omega) fun k hk j hj =>
      not_occurs_guarded hclauses ht hw hk (by omega), hdrop]
  · intro j h
    have hblank : Bounds [' '].getLast? := (Text.bounds_of_foldChar rfl : Bounds (some ' '))
    rw [Text.word_append hor (by decide) (Or.inl hblank)] at h
    rcases h with h | ⟨n, -, h⟩
    · exact Text.not_word_of_isBlank hor (by decide) h
    · exact Text.not_word_parenthesized hor (condition_closed hclauses ht hw) h

/-- The words of a condition are those of what stands behind its `WHERE`. -/
theorem exists_word_condition (hclauses : Clauses.of? t = some clauses) (ht : Place.Closed t)
    {w : Nat} (hw : clauses.whereAt = some w) (hbody : clauses.bodyAt = w + 7)
    (hlong : w + 6 ≤ (Text.trimEnd (t.take clauses.tailAt)).length) :
    (∃ j, Word Keyword.orWord ((Text.trimEnd (t.take clauses.tailAt)).drop (w + 6)) j) ↔
      ∃ j, Word Keyword.orWord (clauses.condition t) j := by
  have hor : Capitals Keyword.orWord := by decide
  obtain ⟨ho, -⟩ := Clauses.occurs_whereAt hclauses hw
  have hle := Clauses.bodyAt_le_tailAt hclauses hw
  have htail := Clauses.tailAt_le hclauses
  obtain ⟨u, -, hu, hall⟩ := take_tailAt t clauses
  obtain ⟨l, v, hlv, hl, hv⟩ :=
    Text.trim_append_blanks ((t.take clauses.tailAt).drop clauses.bodyAt)
  have hstart := after_front hclauses ht
  have hcondition := (condition_closed hclauses ht hw).1
  generalize hx : Text.trimEnd (t.take clauses.tailAt) = front at hu hstart hlong ⊢
  have hfront : Place.after .start (front.drop (w + 6)) = .start := by
    have htake : front.take (w + 6) = t.take (w + 6) := by
      have h := congrArg (List.take (w + 6)) hu
      rw [List.take_take, Nat.min_eq_left (by omega), List.take_append_of_le_length hlong] at h
      exact h.symm
    have hopen := ho.after_take (by decide) (n := 6) (by decide)
    rw [← List.take_append_drop (w + 6) front, Place.after_append, htake, hopen] at hstart
    exact hstart
  obtain ⟨c, hc, hblank⟩ := Text.isBlank_of_fold (ho.getElem?_fold (n := 6) (by decide))
  have hsplit : front.drop (w + 6) ++ u = [c] ++ l ++ clauses.condition t ++ v := by
    have hlt : w + 6 < (t.take clauses.tailAt).length := by
      rw [List.length_take_of_le htail]
      omega
    have hget : (t.take clauses.tailAt)[w + 6] = c := by
      rw [List.getElem_take]
      exact Option.some.inj ((List.getElem?_eq_getElem _).symm.trans hc)
    rw [← List.drop_append_of_le_length hlong, ← hu, List.drop_eq_getElem_cons hlt, hget, ← hbody,
      hlv, Clauses.condition, List.append_assoc, List.append_assoc, List.append_assoc]
    rfl
  have hblanks : ([c] ++ l).all Text.isBlank = true := by
    rw [List.all_append, List.all_cons, hblank, hl]
    rfl
  rw [← Text.exists_word_blanks (l := []) hor hfront rfl hall, List.nil_append, hsplit,
    Text.exists_word_blanks hor hcondition hblanks hv]

/-- A condition in which no `OR` is found gets the term of the filter as it stands. -/
theorem conjoined_of_plain (hclauses : Clauses.of? t = some clauses) (ht : Place.Closed t)
    (hf : Place.Closed fragment) (hsingle : IsSingle t clauses) {w : Nat}
    (hw : clauses.whereAt = some w) :
    Conjoined (Text.trimEnd (t.take clauses.tailAt) ++ Outline.term fragment ++
      t.drop clauses.tailAt) fragment ↔ ¬∃ j, Word Keyword.orWord (clauses.condition t) j := by
  have hwhere : Capitals Keyword.whereWord := by decide
  obtain ⟨hhere, honly, hbody, hle⟩ := where_only hclauses hsingle hw
  obtain ⟨-, hrest⟩ := Clauses.tail_spec hclauses ht.1
  have hstart := after_front hclauses ht
  have hfound : Word Keyword.whereWord (Text.trimEnd (t.take clauses.tailAt)) (w + 1) := by
    rcases (word_iff hwhere hclauses ht).mp hhere with h | ⟨n, hn, -⟩
    · exact h
    · omega
  have hlong : w + 6 ≤ (Text.trimEnd (t.take clauses.tailAt)).length := hfound.1.length_le
  have hwords : ∀ j, Word Keyword.whereWord (Text.trimEnd (t.take clauses.tailAt) ++
      Outline.term fragment ++ t.drop clauses.tailAt) j ↔ j = w + 1 := by
    intro j
    rw [word_where_restricted hstart hf (bounds_of_rest hrest)]
    constructor
    · rintro (h | ⟨n, -, h⟩)
      · exact honly j ((word_iff hwhere hclauses ht).mpr (Or.inl h))
      · have := honly _ ((word_iff hwhere hclauses ht).mpr (Or.inr ⟨n, rfl, h⟩))
        omega
    · rintro rfl
      exact Or.inl hfound
  have hrestriction := restriction_eq (i := w + 1) hstart hf hrest hlong fun k hk j hj =>
    hsingle.complete k hk j (by omega)
  rw [← exists_word_condition hclauses ht hw hbody hlong]
  constructor
  · rintro ⟨i, hi, condition, heq, hno⟩ ⟨j, hj⟩
    obtain rfl := (hi (w + 1)).mp ((hwords (w + 1)).mpr rfl)
    rw [hrestriction] at heq
    exact hno j (List.append_cancel_right heq ▸ hj)
  · intro hno
    exact ⟨w + 1, hwords, _, hrestriction, fun j hj => hno ⟨j, hj⟩⟩

/-- A set operation is filtered from outside, where the fragment is the whole condition. -/
theorem not_conjoined_setOperation (d : Dialect) (ht : Place.Closed t) (fragment : Text) :
    ¬Conjoined (selectAll (d.derivedTable t sourceAlias) ++ Keyword.whereClause ++ fragment)
      fragment := by
  have halias : sourceAlias.all Text.isPlain = true := by decide
  have hstart := (selectAll_closed (derivedTable_closed d ht halias)).1
  generalize selectAll (d.derivedTable t sourceAlias) = front at hstart
  rintro ⟨i, hi, condition, heq, -⟩
  have ho : Occurs Keyword.whereClause (front ++ (Keyword.whereClause ++ fragment))
      (front.length + 0) := by
    refine (Text.occurs_append_right hstart).mpr ⟨?_, rfl, ?_⟩
    · rw [List.length_append]
      exact Nat.add_pos_left (by decide) _
    · rw [Text.fold_append]
      exact List.prefix_append _ _
  rw [List.append_assoc] at hi heq
  obtain rfl := (hi _).mp (Text.word_of_occurs ho)
  have hlen := congrArg List.length heq
  have hkeyword : Keyword.whereClause.length = 7 := by decide
  simp only [restriction, Outline.term, Predicate.parenthesized, List.length_append,
    List.length_drop, List.length_take, List.length_cons, List.length_nil, hkeyword] at hlen
  have hand : " AND ".toList.length = 5 := by decide
  omega

/-- Exactly when no `WHERE` and no `OR` of the statement escapes the search, the filter is conjoined
to its whole condition. -/
theorem ofRequest_conjoined_iff {d : Dialect} {r : Request} {f : Fragment} {s : Statement}
    (hsource : Place.Closed r.source) (htable : ∀ table ∈ r.table, Place.Closed table)
    (hf : Place.Closed f.text) (hne : f.text ≠ []) (hbase : base r (.of r.source) = .ok t)
    (hclauses : Clauses.of? t = some clauses) (hsingle : IsSingle t clauses)
    (hs : ofRequest d r (.of r.source) f = .ok s) :
    Conjoined s.text f.text ↔
      (Profile.of r.source).hasSetOperation = false ∧
      ((∃ i, Word Keyword.whereWord t i) → clauses.whereAt.isSome = true) ∧
      (clauses.whereAt.isSome = true → (∃ i, Word Keyword.orWord (clauses.condition t) i) →
        (Text.topLevel? Keyword.or 0 (clauses.condition t)).isSome = true) := by
  have ht := base_closed (bareSource_closed hsource) htable hbase
  have hempty : f.text.isEmpty = false := by
    rw [Bool.eq_false_iff]
    exact fun he => hne (List.isEmpty_iff.mp he)
  simp only [ofRequest, hbase, hclauses] at hs
  by_cases hset : (Profile.of r.source).hasSetOperation = true
  · rw [if_pos hset] at hs
    obtain rfl := Except.ok.inj hs
    simp only [restrictSetOperation, hempty, Bool.false_eq_true, if_false, hset, Bool.true_eq_false,
      false_and, iff_false]
    exact not_conjoined_setOperation d ht f.text
  · rw [if_neg hset] at hs
    obtain rfl := Except.ok.inj hs
    have htext : (restrict t clauses r.parameters f).text =
        head t clauses ++ Outline.term f.text ++ t.drop clauses.tailAt := by
      simp only [restrict, hempty, Bool.false_eq_true, if_false, Outline.term, List.append_assoc]
    rw [htext]
    simp only [Bool.not_eq_true] at hset
    cases hw : clauses.whereAt with
    | none =>
      have hhead : head t clauses = Text.trimEnd (t.take clauses.tailAt) ++ neutralWhere := by
        simp only [head, hw]
      rw [hhead, conjoined_of_none hclauses ht hf]
      simp [hset]
    | some w =>
      by_cases hor : (Text.topLevel? Keyword.or 0 (clauses.condition t)).isSome = true
      · have hhead : head t clauses = t.take w ++ Keyword.whereClause ++
            Predicate.parenthesized (clauses.condition t) := by
          simp only [head, hw, Clauses.condition] at hor ⊢
          rw [if_pos hor]
        rw [hhead]
        simp only [hset, hor, Option.isSome_some, implies_true, and_self, iff_true]
        exact conjoined_of_or hclauses ht hf hsingle hw
      · have hhead : head t clauses = Text.trimEnd (t.take clauses.tailAt) := by
          simp only [head, hw, Clauses.condition] at hor ⊢
          rw [if_neg hor]
        rw [hhead, conjoined_of_plain hclauses ht hf hsingle hw]
        simp only [hset, hor, Option.isSome_some, implies_true, true_and, forall_const,
          Bool.false_eq_true]

end

/-- A condition with an `OR` outside quotes and one inside. -/
def spacedOr : Request where
  source := "SELECT * FROM t WHERE a = ')OR(' or b = 2 ORDER BY a".toList

theorem ofRequest_conjoined_iff_spacedOr :
    ∃ s, ofRequest .mysql spacedOr (.of spacedOr.source) ⟨"c = 3".toList, []⟩ = .ok s ∧
      Conjoined s.text "c = 3".toList := by
  obtain ⟨s, hs⟩ : ∃ s, ofRequest .mysql spacedOr (.of spacedOr.source) ⟨"c = 3".toList, []⟩ =
      .ok s := ⟨_, rfl⟩
  have hwhere : ∀ i < 52, Word Keyword.whereWord spacedOr.source i → i = 16 := by decide +kernel
  have hclauses : Clauses.of? spacedOr.source = some ⟨8, some 15, 22, 41⟩ := by decide +kernel
  have hsingle : IsSingle spacedOr.source ⟨8, some 15, 22, 41⟩ :=
    { one_where := by
        intro i j hi hj
        rw [hwhere i hi.1.1 hi, hwhere j hj.1.1 hj]
      complete := by
        have hall : ∀ k ∈ Keyword.trailing, ∀ i < 42, 22 ≤ i →
            ¬Occurs k (Text.trimEnd (spacedOr.source.take 41) ++ [' ']) i := by decide +kernel
        intro k hk i hi ho
        exact hall k hk i ho.1 hi ho }
  refine ⟨s, hs, ?_⟩
  refine (ofRequest_conjoined_iff (by decide +kernel) (by decide) (by decide) (by decide)
    (by decide +kernel) hclauses hsingle hs).mpr ⟨by decide +kernel, fun _ => rfl, fun _ _ => ?_⟩
  decide +kernel

/-- A condition whose `OR` stands between parentheses without spaces. -/
def unspacedOr : Request := { source := "SELECT * FROM t WHERE (a = 1)OR(b = 2)".toList }

/-- The filter is conjoined to the second alternative only. -/
theorem not_conjoined_unspacedOr :
    Place.Closed unspacedOr.source ∧
      ∃ s, ofRequest .mysql unspacedOr (.of unspacedOr.source) ⟨"c = 3".toList, []⟩ = .ok s ∧
        s.text = "SELECT * FROM t WHERE (a = 1)OR(b = 2) AND (c = 3)".toList ∧
        ¬Conjoined s.text "c = 3".toList := by
  refine ⟨by decide, _, rfl, by decide +kernel, ?_⟩
  rintro ⟨i, hi, condition, heq, hno⟩
  obtain rfl : 16 = i := (hi 16).mp (by decide +kernel)
  have hrestriction : restriction "SELECT * FROM t WHERE (a = 1)OR(b = 2) AND (c = 3)".toList 16 =
      " (a = 1)OR(b = 2)".toList ++ Outline.term "c = 3".toList := by decide +kernel
  have hcondition := List.append_cancel_right (hrestriction.symm.trans heq)
  refine hno 8 ?_
  rw [← hcondition]
  decide +kernel

end Statement

end PagedQuery
