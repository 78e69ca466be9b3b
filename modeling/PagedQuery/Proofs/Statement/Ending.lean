import PagedQuery.Proofs.Statement.Body
import PagedQuery.Proofs.Statement.Closure

/-!
# Endings of statements

A text that ends in a bare `LIMIT`, `OFFSET` or `FETCH` has a row limit as soon as
a space follows. A statement ends as the source, the table or the filter does that
stands last in it, or in a condition of its own, so none of these words ends it
when none of them ends its parts.
-/
namespace PagedQuery

namespace Keyword

/-- The words of the clauses that cap the number of rows. -/
def rowLimitWords : List Text := ["LIMIT".toList, "OFFSET".toList, "FETCH".toList]

theorem rowLimits_eq : rowLimits = rowLimitWords.map fun word => ' ' :: (word ++ [' ']) := by decide

theorem space_not_mem : ∀ word ∈ rowLimitWords, ' ' ∉ word := by decide

end Keyword

namespace Text

/-- What is left of the text without blanks at its end ends in the word, behind a space or as a
whole. -/
def EndsIn (word t : Text) : Prop := ' ' :: word <:+ ' ' :: fold (trimEnd t)

instance (word t : Text) : Decidable (EndsIn word t) := inferInstanceAs (Decidable (_ <:+ _))

variable {word s t : Text}

theorem suffix_append_space_iff {s t : Text} (hword : ' ' ∉ word) :
    ' ' :: word <:+ s ++ ' ' :: t ↔ ' ' :: word <:+ ' ' :: t := by
  constructor
  · intro h
    rcases List.suffix_or_suffix_of_suffix h (List.suffix_append s (' ' :: t)) with hin | hout
    · exact hin
    · rcases List.suffix_cons_iff.mp hout with heq | hlong
      · exact heq ▸ List.suffix_refl _
      · exact absurd (hlong.subset List.mem_cons_self) hword
  · intro h
    exact h.trans (List.suffix_append s _)

theorem endsIn_append (hword : ' ' ∉ word) (hs : (fold s).getLast? = some ' ')
    (ht : trimEnd t ≠ []) : EndsIn word (s ++ t) ↔ EndsIn word t := by
  rw [EndsIn, EndsIn, trimEnd_append s ht, fold_append, ← List.dropLast_append_getLast? ' ' hs,
    List.append_assoc]
  exact suffix_append_space_iff (s := ' ' :: (fold s).dropLast) hword

theorem not_endsIn_of_getLast? {c : Char} (hc : (fold (trimEnd t)).getLast? = some c)
    (hnil : word ≠ []) (hnot : word.getLast? ≠ some c) : ¬EndsIn word t := by
  rintro ⟨u, hu⟩
  have hlast := congrArg List.getLast? hu
  rw [List.getLast?_append, List.getLast?_cons_of_ne_nil hnil, List.getLast?_cons, hc,
    Option.getD_some] at hlast
  cases hw : word.getLast? with
  | none => exact hnil (List.getLast?_eq_none_iff.mp hw)
  | some d =>
    rw [hw, Option.some_or] at hlast
    exact hnot (hw.trans hlast)

theorem trimEnd_append_of_isBlank (s : Text) (ht : t.all isBlank = true) :
    trimEnd (s ++ t) = trimEnd s := by
  rw [trimEnd, trimEnd, trimEndBy, trimEndBy, List.reverse_append, List.dropWhile_append_of_pos]
  intro c hc
  exact List.all_eq_true.mp ht c (List.mem_reverse.mp hc)

end Text

namespace Statement

open Text (EndsIn)

variable {d : Dialect} {r : Request} {t word : Text} {clauses : Clauses} {f : Fragment}

/-- A text that ends in a clause ends as the clause does behind its first space. -/
theorem endsIn_tail (hword : ' ' ∉ word) {k tail : Text} (hk : k ∈ Keyword.cuts)
    (htail : k <+: Text.fold tail) (s : Text) :
    EndsIn word (s ++ tail) ↔ EndsIn word (tail.drop 1) := by
  obtain ⟨l, hl, hupper⟩ := Keyword.exists_letter hk
  have hlong := Keyword.one_lt_length k hk
  obtain ⟨u, hu⟩ := htail
  have hspace : (Text.fold tail)[0]? = some ' ' := by
    rw [← hu, List.getElem?_append_left (by omega), ← List.head?_eq_getElem?,
      Keyword.head?_of_mem_cuts k hk]
  have hletter : (Text.fold tail)[1]? = some l := by
    rw [← hu, List.getElem?_append_left hlong]
    exact hl
  rcases tail with _ | ⟨c, _ | ⟨e, rest⟩⟩
  · exact absurd hspace (by simp [Text.fold])
  · exact absurd hletter (by simp [Text.fold])
  · rw [Text.fold, List.map_cons, List.getElem?_cons_zero, Option.some_inj] at hspace
    rw [Text.fold, List.map_cons, List.getElem?_cons_succ, List.map_cons, List.getElem?_cons_zero,
      Option.some_inj] at hletter
    have hblank : Text.isBlank e = false := by
      rw [← Bool.not_eq_true]
      intro hblank
      have hnot := Text.not_isUpper_of_isBlank hblank
      rw [hletter, hupper] at hnot
      exact absurd hnot (by decide)
    have hlast : (Text.fold (s ++ [c])).getLast? = some ' ' := by
      rw [Text.fold_append, List.getLast?_append]
      exact congrArg some hspace
    rw [List.append_cons]
    exact Text.endsIn_append hword hlast (Text.trimEnd_ne_nil_of_head hblank)

/-- A statement ends as its source or its table does. -/
theorem not_endsIn_base (hword : word ∈ Keyword.rowLimitWords)
    (hbare : ¬EndsIn word (bareSource r.source))
    (htable : ∀ table ∈ r.table, ¬EndsIn word (Text.trim table)) {profile : Profile}
    (h : base r profile = .ok t) : ¬EndsIn word t := by
  have hspace := Keyword.space_not_mem word hword
  have hsource : ∀ {front : Text}, (Text.fold front).getLast? = some ' ' →
      bareSource r.source ≠ [] → ¬EndsIn word (front ++ bareSource r.source) := by
    intro front hfront hne hends
    rw [Text.endsIn_append hspace hfront (by rwa [bareSource, Text.trimEnd_trimEnd])] at hends
    exact hbare hends
  have hselect : (Text.fold "SELECT * FROM ".toList).getLast? = some ' ' := by decide
  rcases base_cases h with rfl | ⟨hne, rfl | rfl⟩ | ⟨table, hmem, hne, ⟨-, rfl⟩ | ⟨hne', rfl⟩⟩
  · exact hbare
  · exact hsource (by decide) hne
  · exact hsource hselect hne
  · have hkept : Text.trimEnd (Text.trim table) ≠ [] := by
      rwa [Text.trimEnd_of_trim (Text.trim_trim table)]
    exact fun hends => htable table hmem ((Text.endsIn_append hspace hselect hkept).mp hends)
  · refine hsource ?_ hne'
    rw [Text.fold_append, List.getLast?_append]
    rfl

theorem not_endsIn_where_append (hword : word ∈ Keyword.rowLimitWords) {fragment : Text}
    (hf : ¬EndsIn word fragment) (s : Text) :
    ¬EndsIn word (s ++ Keyword.whereClause ++ fragment) := by
  have hspace := Keyword.space_not_mem word hword
  by_cases hblank : Text.trimEnd fragment = []
  · have hnil : ∀ word ∈ Keyword.rowLimitWords, word ≠ [] := by decide
    have hlast : ∀ word ∈ Keyword.rowLimitWords, word.getLast? ≠ some 'E' := by decide
    obtain ⟨u, hu, hall⟩ := Text.trimEnd_append_blanks fragment
    rw [hblank, List.nil_append] at hu
    refine Text.not_endsIn_of_getLast? ?_ (hnil word hword) (hlast word hword)
    rw [hu, Text.trimEnd_append_of_isBlank _ hall, Text.trimEnd_append _ (by decide),
      Text.fold_append, List.getLast?_append]
    rfl
  · have hkeyword : (Text.fold (s ++ Keyword.whereClause)).getLast? = some ' ' := by
      rw [Text.fold_append, List.getLast?_append]
      rfl
    exact fun h => hf ((Text.endsIn_append hspace hkeyword hblank).mp h)

theorem not_endsIn_restrict (hword : word ∈ Keyword.rowLimitWords) {parameters : List Value}
    (hrest : t.drop clauses.tailAt = [] ∨
      ∃ k ∈ Keyword.trailing, k <+: Text.fold (t.drop clauses.tailAt))
    (ht : ¬EndsIn word t) : ¬EndsIn word (restrict t clauses parameters f).text := by
  have hspace := Keyword.space_not_mem word hword
  have htail : ∀ s, t.drop clauses.tailAt ≠ [] → ¬EndsIn word (s ++ t.drop clauses.tailAt) := by
    intro s hne hends
    obtain ⟨k, hk, hpre⟩ := hrest.resolve_left hne
    have hcut := Keyword.mem_cuts_of_mem_trailing hk
    rw [endsIn_tail hspace hcut hpre, ← endsIn_tail hspace hcut hpre (t.take clauses.tailAt),
      List.take_append_drop] at hends
    exact ht hends
  unfold restrict
  split
  · unfold withCondition
    split
    · rename_i hshort
      refine htail _ fun hnil => ?_
      have hle := List.drop_eq_nil_iff.mp hnil
      omega
    · exact ht
  · change ¬EndsIn word (head t clauses ++ " AND ".toList ++ Predicate.parenthesized f.text ++
      t.drop clauses.tailAt)
    by_cases hne : t.drop clauses.tailAt = []
    · have hnil : ∀ word ∈ Keyword.rowLimitWords, word ≠ [] := by decide
      have hlast : ∀ word ∈ Keyword.rowLimitWords, word.getLast? ≠ some ')' := by decide
      refine Text.not_endsIn_of_getLast? ?_ (hnil word hword) (hlast word hword)
      have hterm : Text.trimEnd (Predicate.parenthesized f.text) ≠ [] := by
        rw [Text.trimEnd_parenthesized]
        exact List.cons_ne_nil _ _
      have hclose : (Text.fold (Predicate.parenthesized f.text)).getLast? = some ')' := by
        rw [Predicate.parenthesized, Text.fold_append, List.getLast?_append]
        rfl
      rw [hne, List.append_nil, Text.trimEnd_append _ hterm, Text.trimEnd_parenthesized,
        Text.fold_append, List.getLast?_append, hclose, Option.some_or]
    · exact htail _ hne

/-- A restricted statement ends as the statement or the filter does, or in a condition of its own. -/
theorem not_endsIn_ofRequest (hword : word ∈ Keyword.rowLimitWords)
    (hbare : ¬EndsIn word (bareSource r.source)) (hclosed : Place.Closed (bareSource r.source))
    (htable : ∀ table ∈ r.table, ¬EndsIn word (Text.trim table))
    (htableClosed : ∀ table ∈ r.table, Place.Closed table) (hf : ¬EndsIn word f.text)
    {s : Statement} {profile : Profile} (hs : ofRequest d r profile f = .ok s) :
    ¬EndsIn word s.text := by
  obtain ⟨t, hbase, hcases⟩ := ofRequest_cases hs
  have ht := not_endsIn_base hword hbare htable hbase
  rcases hcases with ⟨-, rfl⟩ | ⟨-, clauses, hclauses, rfl⟩
  · unfold restrictSetOperation
    split
    · exact ht
    · exact not_endsIn_where_append hword hf _
  · obtain ⟨-, hrest⟩ := Clauses.tail_spec hclauses (base_closed hclosed htableClosed hbase).1
    exact not_endsIn_restrict hword hrest ht

end Statement

end PagedQuery
