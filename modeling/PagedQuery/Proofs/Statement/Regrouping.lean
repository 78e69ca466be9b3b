import PagedQuery.Proofs.Lexical.Word
import PagedQuery.Proofs.Plan

/-!
# Counts in place of the select list

A simple statement is counted by its own text from `FROM` on. The number of rows
is another one when the statement merges, groups or combines rows, and the
profile of the source has to tell. It looks for `DISTINCT`, `GROUP BY` and their
like with white space around them, but a word of SQL ends at a parenthesis too:
`DISTINCT(a)` escapes the profile, and the rows are counted as they are fetched.
-/
namespace PagedQuery

namespace Keyword

/-- What changes the number of rows that are fetched, by the words of each. -/
def regrouping : List (List Text) :=
  [["DISTINCT".toList], ["GROUP".toList, "BY".toList], ["HAVING".toList], ["UNION".toList],
    ["INTERSECT".toList], ["EXCEPT".toList], ["MINUS".toList]]

/-- The words as a profile looks for them, with one space around and between them. -/
def spaced (words : List Text) : Text := [' '] ++ [' '].intercalate words ++ [' ']

end Keyword

namespace Text

/-- The words stand one after another from position `i` on, with nothing but blanks between. -/
def Phrase (t : Text) : List Text → Nat → Prop
  | [], i => i ≤ t.length
  | [word], i => Word word t i
  | word :: words, i =>
    Word word t i ∧ ∃ j, i + word.length ≤ j ∧
      ((t.take j).drop (i + word.length)).all isBlank = true ∧ Phrase t words j

end Text

/-- A text that has one of the tokens of a profile with spaces around it is complex. -/
theorem Profile.isComplex_of_mentions {t : Text} :
    ∀ words ∈ Keyword.regrouping, Text.mentions (Keyword.spaced words) t = true →
      (Profile.of t).isComplex = true := by
  have hgroups : (Profile.of t).isComplex = true ↔
      ((((((Text.mentions " GROUP BY ".toList t = true ∨ Text.mentions " HAVING ".toList t = true) ∨
        Text.mentions " DISTINCT ".toList t = true) ∨ mentionsAny joinWords t = true) ∨
        mentionsAny setOperations t = true) ∨ mentionsAny subqueryOpenings t = true) ∨
        Text.startsWith "WITH ".toList t = true) := by
    simp only [Profile.isComplex, Profile.of, Bool.or_eq_true]
  have hset : ∀ token ∈ setOperations, Text.mentions token t = true →
      mentionsAny setOperations t = true := fun token htoken h =>
    List.any_eq_true.mpr ⟨token, htoken, h⟩
  intro words hwords h
  rw [hgroups]
  simp only [Keyword.regrouping, List.mem_cons, List.not_mem_nil, or_false] at hwords
  rcases hwords with rfl | rfl | rfl | rfl | rfl | rfl | rfl
  · have hdistinct : Text.mentions " DISTINCT ".toList t = true := h
    simp only [hdistinct, true_or, or_true]
  · have hgroup : Text.mentions " GROUP BY ".toList t = true := h
    simp only [hgroup, true_or]
  · have hhaving : Text.mentions " HAVING ".toList t = true := h
    simp only [hhaving, true_or, or_true]
  · have hunion := hset " UNION ".toList (by decide) h
    simp only [hunion, true_or, or_true]
  · have hintersect := hset " INTERSECT ".toList (by decide) h
    simp only [hintersect, true_or, or_true]
  · have hexcept := hset " EXCEPT ".toList (by decide) h
    simp only [hexcept, true_or, or_true]
  · have hminus := hset " MINUS ".toList (by decide) h
    simp only [hminus, true_or, or_true]

namespace Statement

open Text (Phrase Word)

/-- A word that changes the number of rows stands at the top level of the statement. -/
def Regroups (t : Text) : Prop := ∃ words ∈ Keyword.regrouping, ∃ i, Phrase t words i

/-- The statement is counted by its own text from `FROM` on, its order apart. -/
def CountsInPlace (t counted : Text) : Prop :=
  ∃ own fromAt, withoutOrder? t = some own ∧
    Text.topLevel? Keyword.fromClause 0 own = some fromAt ∧
    counted = "SELECT COUNT(*)".toList ++ own.drop fromAt

/-- The text of the statement forbids to replace its select list: its order has to stay, its select
list has a placeholder, or a subquery, a row limit or a lock follows its `FROM`. -/
def KeepsSelectList (t : Text) : Prop :=
  ∀ own fromAt, withoutOrder? t = some own →
    Text.topLevel? Keyword.fromClause 0 own = some fromAt →
    0 < Placeholder.count (own.take fromAt) ∨
      Profile.mentionsAny Profile.subqueryOpenings (own.drop fromAt) = true ∨
      Text.hasTopLevel Keyword.limits fromAt own = true

variable {d : Dialect} {tableAlias t own counted : Text} {fromAt : Nat} {profile : Profile}

/-- A count of a derived table is longer than any count by the text of the table itself. -/
theorem countWrapped_ne (d : Dialect) (tableAlias own : Text) (fromAt : Nat) :
    countWrapped d tableAlias own ≠ "SELECT COUNT(*)".toList ++ own.drop fromAt := by
  have hne : ∀ long short opening closing name : Text, short.length < long.length →
      long ++ (opening ++ own ++ closing ++ name) ≠ short ++ own.drop fromAt := by
    intro long short opening closing name hlt h
    have hlen := congrArg List.length h
    simp only [List.length_append, List.length_drop] at hlen
    omega
  exact hne _ _ _ _ _ (by decide)

theorem countDirectly?_eq_some (hfrom : Text.topLevel? Keyword.fromClause 0 own = some fromAt) :
    countDirectly? own = some counted ↔
      ¬(0 < Placeholder.count (own.take fromAt) ∨
        Profile.mentionsAny Profile.subqueryOpenings (own.drop fromAt) = true ∨
        Text.hasTopLevel Keyword.limits fromAt own = true) ∧
      counted = "SELECT COUNT(*)".toList ++ own.drop fromAt := by
  unfold countDirectly?
  rw [hfrom]
  dsimp only
  split
  · rename_i hkeeps
    exact ⟨fun h => absurd h (Option.some_ne_none counted).symm, fun h => absurd hkeeps h.1⟩
  · rename_i hkeeps
    rw [Option.some.injEq, eq_comm]
    exact (and_iff_right hkeeps).symm

/-- The select list is replaced exactly when neither the profile nor the text forbids it. -/
theorem countsInPlace_count_iff :
    CountsInPlace t (count d tableAlias profile t) ↔
      profile.isComplex = false ∧ ¬KeepsSelectList t := by
  constructor
  · rintro ⟨own, fromAt, hown, hfrom, hcount⟩
    rw [count, hown] at hcount
    dsimp only at hcount
    split at hcount
    · exact absurd hcount (countWrapped_ne d tableAlias own fromAt)
    · rename_i hsimple
      refine ⟨Bool.eq_false_iff.mpr hsimple, fun hkeeps => ?_⟩
      have hrefused : countDirectly? own = none := by
        rw [Option.eq_none_iff_forall_ne_some]
        intro counted hcounted
        exact ((countDirectly?_eq_some hfrom).mp hcounted).1 (hkeeps own fromAt hown hfrom)
      rw [hrefused, Option.getD_none] at hcount
      exact countWrapped_ne d tableAlias own fromAt hcount
  · rintro ⟨hsimple, hkeeps⟩
    unfold KeepsSelectList at hkeeps
    push Not at hkeeps
    obtain ⟨own, fromAt, hown, hfrom, hno⟩ := hkeeps
    have hdirect : countDirectly? own = some ("SELECT COUNT(*)".toList ++ own.drop fromAt) := by
      refine (countDirectly?_eq_some hfrom).mpr ⟨?_, rfl⟩
      push Not
      exact hno
    refine ⟨own, fromAt, hown, hfrom, ?_⟩
    rw [count, hown]
    dsimp only
    rw [hsimple, hdirect, Option.getD_some]
    exact if_neg Bool.false_ne_true

end Statement

namespace Planner

open Statement (CountsInPlace KeepsSelectList Regroups)

/-- A count by the statement's own text is safe exactly when each statement with a word that changes
the number of rows has a complex profile, or a text that forbids such a count. It is safe when the
source spells these words with white space around them. -/
theorem countsInPlace_safe_iff {p : Planner} {r : Request} {plan : Plan}
    (hplan : p.plan r = .ok plan) :
    ∃ s, p.statement r = .ok s ∧
      plan.countStatement = Placeholder.restyle p.dialect.placeholderStyle (p.countText r s) ∧
      ((CountsInPlace s.text (p.countText r s) → ¬Regroups s.text) ↔
        (Regroups s.text →
          (Profile.of r.source).isComplex = true ∨ KeepsSelectList s.text)) ∧
      ((∀ words ∈ Keyword.regrouping, (∃ i, Text.Phrase s.text words i) →
          Text.mentions (Keyword.spaced words) r.source = true) →
        CountsInPlace s.text (p.countText r s) → ¬Regroups s.text) := by
  obtain ⟨s, pageText, hs, -, rfl⟩ := eq_of_plan hplan
  have hplace : CountsInPlace s.text (p.countText r s) ↔
      (Profile.of r.source).isComplex = false ∧ ¬KeepsSelectList s.text :=
    Statement.countsInPlace_count_iff
  refine ⟨s, hs, rfl, ?_, ?_⟩
  · rw [hplace, ← Bool.not_eq_true]
    constructor
    · intro hsafe hregroups
      by_contra hkeeps
      exact hsafe (not_or.mp hkeeps) hregroups
    · intro hforbidden hcounts hregroups
      exact absurd (hforbidden hregroups) (not_or.mpr hcounts)
  · rintro hspelled hcounts ⟨words, hwords, hphrase⟩
    have hcomplex := Profile.isComplex_of_mentions words hwords (hspelled words hwords hphrase)
    rw [(hplace.mp hcounts).1] at hcomplex
    exact absurd hcomplex Bool.false_ne_true

/-- A source with `DISTINCT` in front of a parenthesis, and a join. -/
def distinctJoin : Request := { source := "SELECT DISTINCT(a.b) FROM a\tJOIN c ON a.b = c.b".toList }

theorem countsInPlace_safe_iff_distinctJoin :
    ∃ plan s, ({ dialect := .postgres } : Planner).plan distinctJoin = .ok plan ∧
      ({ dialect := .postgres } : Planner).statement distinctJoin = .ok s ∧ Regroups s.text ∧
      ¬CountsInPlace s.text (({ dialect := .postgres } : Planner).countText distinctJoin s) := by
  have hcomplex : (Profile.of distinctJoin.source).isComplex = true := by decide +kernel
  obtain ⟨plan, hplan⟩ : ∃ plan, ({ dialect := .postgres } : Planner).plan distinctJoin =
      .ok plan := ⟨_, rfl⟩
  obtain ⟨s, hs, -, hsafe, -⟩ := countsInPlace_safe_iff hplan
  have hnormal : ({ dialect := .postgres } : Planner).statement distinctJoin =
      .ok ⟨distinctJoin.source, []⟩ := rfl
  obtain rfl := Except.ok.inj (hs.symm.trans hnormal)
  have hregroups : Regroups distinctJoin.source := by
    refine ⟨["DISTINCT".toList], by decide, 7, ?_⟩
    unfold Text.Phrase
    decide +kernel
  exact ⟨plan, _, hplan, hs, hregroups, fun hcounts =>
    hsafe.mpr (fun _ => Or.inl hcomplex) hcounts hregroups⟩

/-- A source whose `DISTINCT` ends at a parenthesis. -/
def distinctName : Request := { source := "SELECT DISTINCT(name) FROM users".toList }

/-- Each user is counted, though equal names make one row. -/
theorem not_safe_distinctName :
    ∃ plan s, ({ dialect := .mysql } : Planner).plan distinctName = .ok plan ∧
      ({ dialect := .mysql } : Planner).statement distinctName = .ok s ∧
      plan.countStatement = "SELECT COUNT(*) FROM users".toList ∧
      CountsInPlace s.text plan.countStatement ∧ Regroups s.text := by
  refine ⟨_, _, rfl, rfl, ?_, ?_, ?_⟩
  · decide +kernel
  · refine ⟨distinctName.source, 21, ?_, ?_, ?_⟩ <;> decide +kernel
  · refine ⟨["DISTINCT".toList], by decide, 7, ?_⟩
    unfold Text.Phrase
    decide +kernel

end Planner

end PagedQuery
