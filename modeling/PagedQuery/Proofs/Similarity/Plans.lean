import PagedQuery.Proofs.Plan
import PagedQuery.Proofs.Similarity.Texts

/-!
# Plans of similar sources

Two requests whose sources are similar are planned alike: every stage cuts similar
texts at the same positions and puts the same text in. Both requests have a plan or
neither has one, and then for the same reason. Where a stage joins texts no marker of
a number comes up at the seam in one request only, so that the placeholders of both
are numbered from the same number on.
-/
namespace PagedQuery

/-- Both results are errors or both are values, related in the given ways. -/
inductive Agree {ε α : Type} (E : ε → ε → Prop) (V : α → α → Prop) :
    Except ε α → Except ε α → Prop
  | error {e e' : ε} (h : E e e') : Agree E V (.error e) (.error e')
  | ok {a b : α} (h : V a b) : Agree E V (.ok a) (.ok b)

/-- The errors are of one kind and cite similar texts. -/
inductive PlanError.Similar : PlanError → PlanError → Prop
  | missingTable {s t : Text} (h : Text.Similar s t) : Similar (.missingTable s) (.missingTable t)
  | missingFrom {s t : Text} (h : Text.Similar s t) : Similar (.missingFrom s) (.missingFrom t)
  | filter (e : FilterError) : Similar (.filter e) (.filter e)
  | unsupportedLocking (d : Dialect) {s t : Text} (h : Text.Similar s t) :
    Similar (.unsupportedLocking d s) (.unsupportedLocking d t)

/-- The plans differ in the case of letters and in the kind of white space only. -/
structure Plan.Similar (a b : Plan) : Prop where
  countStatement : Text.Similar a.countStatement b.countStatement
  pageStatement : Text.Similar a.pageStatement b.pageStatement
  parameters : a.parameters = b.parameters
  window : a.window = b.window
  dialect : a.dialect = b.dialect

namespace Placeholder.Alike

variable {style : PlaceholderStyle} {s t : Text}

theorem selectAll (h : Alike style s t) :
    Alike style (Statement.selectAll s) (Statement.selectAll t) :=
  h.const_append (by decide)

theorem parenthesized (h : Alike style s t) :
    Alike style (Predicate.parenthesized s) (Predicate.parenthesized t) :=
  (h.append_const [')']).const_append (u := ['(']) (by decide)

theorem derivedTable (h : Alike style s t) (d : Dialect) (tableAlias : Text) :
    Alike style (d.derivedTable s tableAlias) (d.derivedTable t tableAlias) :=
  ((h.const_append (by decide)).append_const _).append_const _

theorem bareSource (h : Alike style s t) :
    Alike style (Statement.bareSource s) (Statement.bareSource t) :=
  (h.trim.trimEndBy fun c => decide_eq_decide.mpr
    (Text.foldChar_eq_iff (m := ';') (by decide) (by decide) c)).trimEnd

end Placeholder.Alike

namespace Statement

variable {style : PlaceholderStyle} {r : Request} {s t source : Text}

theorem isTableCharacter_foldChar (c : Char) :
    isTableCharacter (Text.foldChar c) = isTableCharacter c := by
  refine Text.foldChar_congr (a := true) (b := false) ?_ ?_ ?_ c
  · intro c lo hi
    rw [isTableCharacter, Text.isAlphanumeric_of_mem (r := (0x41, 0x5A)) (by decide) lo hi]
    rfl
  · intro c lo hi
    rw [isTableCharacter, Text.isAlphanumeric_of_mem (r := (0x61, 0x7A)) (by decide) lo hi]
    rfl
  · intro c hs
    simp only [Text.isAsciiSpace, Bool.or_eq_true, decide_eq_true_eq] at hs
    rcases hs with (((rfl | rfl) | rfl) | rfl) | rfl <;> decide +kernel

theorem isTableName_of_similar (h : Text.Similar s t) : isTableName s = isTableName t := by
  have hfold : ∀ u : Text, u.all isTableCharacter = (Text.fold u).all isTableCharacter := by
    intro u
    have hcomp : isTableCharacter ∘ Text.foldChar = isTableCharacter :=
      funext isTableCharacter_foldChar
    rw [Text.fold, List.all_map, hcomp]
  rw [isTableName, isTableName, h.isEmpty_eq, hfold s, hfold t, h]

/-- The statements have similar texts and the same values. -/
structure Alike (style : PlaceholderStyle) (a b : Statement) : Prop where
  text : Placeholder.Alike style a.text b.text
  parameters : a.parameters = b.parameters

theorem requiredTable_agree (r : Request) (h : Text.Similar s t) {f g : Text → Text}
    (hfg : ∀ table, Placeholder.Alike style (f table) (g table)) :
    Agree PlanError.Similar (Placeholder.Alike style) ((requiredTable r s).map f)
      ((requiredTable r t).map g) := by
  unfold requiredTable
  split
  · exact .error (.missingTable h)
  · exact .error (.missingTable h)
  · exact .ok (hfg _)

theorem base_agree (h : Placeholder.Alike style r.source source) (profile : Profile) :
    Agree PlanError.Similar (Placeholder.Alike style) (base r profile)
      (base { r with source } profile) := by
  have hbare := h.bareSource
  have hstart := Profile.startsWith_congr hbare.similar
  unfold base
  simp only [hstart, hbare.similar.isEmpty_eq, isTableName_of_similar hbare.similar]
  split
  · split
    · exact .ok hbare
    · exact .error (.missingFrom hbare.similar)
  split
  · exact .ok (hbare.const_append (by decide))
  split
  · exact requiredTable_agree r (Text.Similar.refl _) fun table => .refl style (selectAll table)
  split
  · exact .ok hbare.selectAll
  · refine requiredTable_agree r hbare.similar fun table => hbare.const_append ?_
    rw [List.getLast?_append_of_ne_nil _ (by decide)]
    decide

theorem head_alike (h : Placeholder.Alike style s t) (clauses : Clauses) :
    Placeholder.Alike style (head s clauses) (head t clauses) := by
  have hbody := ((h.take clauses.tailAt).drop clauses.bodyAt).trim
  unfold head
  split
  · exact (h.take _).trimEnd.append_const _
  · simp only [hbody.similar.topLevel?]
    split
    · exact ((h.take _).append_const _).append hbody.parenthesized (Or.inl Iff.rfl)
    · exact (h.take _).trimEnd

theorem withCondition_alike (h : Placeholder.Alike style s t) (clauses : Clauses) :
    Placeholder.Alike style (withCondition s clauses) (withCondition t clauses) := by
  unfold withCondition
  rw [h.similar.length_eq]
  split
  · refine ((h.take _).trimEnd.append_const _).append (h.drop _) (Or.inr ?_)
    rw [List.getLast?_append_of_ne_nil _ (by decide)]
    decide
  · exact h

theorem restrictSetOperation_alike (h : Placeholder.Alike style s t) (d : Dialect)
    (parameters : List Value) (f : Fragment) :
    Alike style (restrictSetOperation d s parameters f)
      (restrictSetOperation d t parameters f) := by
  unfold restrictSetOperation
  split
  · exact ⟨h, rfl⟩
  · exact ⟨((h.derivedTable d sourceAlias).selectAll.append_const _).append_const _, rfl⟩

theorem restrict_alike (h : Placeholder.Alike style s t) (clauses : Clauses)
    (parameters : List Value) (f : Fragment) :
    Alike style (restrict s clauses parameters f) (restrict t clauses parameters f) := by
  have hhead := head_alike h clauses
  unfold restrict
  split
  · exact ⟨withCondition_alike h clauses, rfl⟩
  · constructor
    · refine ((hhead.append_const _).append_const _).append (h.drop _) (Or.inr ?_)
      rw [List.getLast?_append_of_ne_nil _ (by simp [Predicate.parenthesized]),
        Predicate.parenthesized, List.getLast?_append_of_ne_nil _ (by decide)]
      decide
    · simp only [Placeholder.count_of_similar hhead.similar]

/-- Requests with alike sources stand for alike statements. -/
theorem ofRequest_agree (h : Placeholder.Alike style r.source source) (d : Dialect)
    (profile : Profile) (f : Fragment) :
    Agree PlanError.Similar (Alike style) (ofRequest d r profile f)
      (ofRequest d { r with source } profile f) := by
  have hbase := base_agree h profile
  unfold ofRequest
  generalize base r profile = b, base { r with source } profile = b' at hbase
  cases hbase with
  | error he => exact .error he
  | @ok s t ht =>
    simp only [ht.similar.clauses]
    split
    · exact .ok (restrictSetOperation_alike ht d r.parameters f)
    split
    · exact .error (.missingFrom ht.similar)
    · exact .ok (restrict_alike ht _ r.parameters f)

theorem withoutOrder?_alike (h : Placeholder.Alike style s t) :
    Option.Rel (Placeholder.Alike style) (withoutOrder? s) (withoutOrder? t) := by
  have hlimits : ∀ k ∈ Keyword.limits, k ∈ Keyword.cuts := by decide
  have hcount : ∀ i j, Placeholder.count ((s.take i).drop j) =
      Placeholder.count ((t.take i).drop j) :=
    fun i j => Placeholder.count_of_similar ((h.similar.take i).drop j)
  unfold withoutOrder?
  rw [h.similar.topLevel?]
  split
  · exact .some h
  · rename_i orderAt _
    have hs := Placeholder.breaks_of_first hlimits (orderAt + Keyword.orderBy.length) s
    have ht := Placeholder.breaks_of_first hlimits (orderAt + Keyword.orderBy.length) t
    rw [h.similar.firstTopLevel?, h.similar.length_eq] at hs
    simp only [h.similar.firstTopLevel?, h.similar.length_eq, hcount, h.similar.hasTopLevel]
    split
    · exact .none
    split
    · exact .none
    · exact .some ((h.take _).append_of_breaks (h.drop _) hs ht)

theorem countDirectly?_alike (h : Placeholder.Alike style s t) :
    Option.Rel (Placeholder.Alike style) (countDirectly? s) (countDirectly? t) := by
  have hcount : ∀ i, Placeholder.count (s.take i) = Placeholder.count (t.take i) :=
    fun i => Placeholder.count_of_similar (h.similar.take i)
  have hmentions : ∀ tokens i, Profile.mentionsAny tokens (s.drop i) =
      Profile.mentionsAny tokens (t.drop i) := by
    intro tokens i
    simp only [Profile.mentionsAny, Profile.mentions_congr (h.similar.drop i)]
  unfold countDirectly?
  simp only [h.similar.topLevel?, hcount, hmentions, h.similar.hasTopLevel]
  split
  · exact .none
  split
  · exact .none
  · exact .some ((h.drop _).const_append (by decide))

theorem countWrapped_alike (h : Placeholder.Alike style s t) (d : Dialect) (tableAlias : Text) :
    Placeholder.Alike style (countWrapped d tableAlias s) (countWrapped d tableAlias t) :=
  (h.derivedTable d tableAlias).const_append (by decide)

theorem count_alike (h : Placeholder.Alike style s t) (d : Dialect) (tableAlias : Text)
    (profile : Profile) :
    Placeholder.Alike style (count d tableAlias profile s) (count d tableAlias profile t) := by
  have horder := withoutOrder?_alike h
  unfold count
  generalize withoutOrder? s = a, withoutOrder? t = b at horder
  cases horder with
  | none => exact countWrapped_alike h d tableAlias
  | @some s t hstripped =>
    dsimp only
    split
    · exact countWrapped_alike hstripped d tableAlias
    have hdirect := countDirectly?_alike hstripped
    generalize countDirectly? s = a, countDirectly? t = b at hdirect
    cases hdirect with
    | none => exact countWrapped_alike hstripped d tableAlias
    | some hcounted => exact hcounted

theorem unlimited_alike (h : Placeholder.Alike style s t) (d : Dialect) :
    Placeholder.Alike style (unlimited d s) (unlimited d t) := by
  unfold unlimited
  rw [h.similar.hasTopLevel]
  split
  · exact (h.derivedTable d pageAlias).selectAll
  · exact h

theorem limited_alike {locking locking' : Text} (limit : LimitSyntax) (w : Window)
    (h : Placeholder.Alike style s t) (h' : Placeholder.Alike style locking locking')
    (hs : Placeholder.Breaks locking) (ht : Placeholder.Breaks locking') :
    Placeholder.Alike style (limited limit w s locking) (limited limit w t locking') := by
  cases limit with
  | limitOffset =>
    exact ((((h.append_const _).append_const _).append_const _).append_const _).append_of_breaks
      h' hs ht
  | offsetFetch =>
    exact (((((h.append_const _).append_const _).append_const _).append_const _).append_const
      _).append_of_breaks h' hs ht
  | rowNum =>
    exact ((((h.const_append (by decide)).append_const _).append_const _).append_const
      _).append_const _

theorem page_agree (h : Placeholder.Alike style s t) (d : Dialect) (keys : List Text) (w : Window) :
    Agree PlanError.Similar (Placeholder.Alike style) (page d keys w s) (page d keys w t) := by
  have hown := unlimited_alike h d
  unfold page
  generalize unlimited d s = u, unlimited d t = v at hown
  have hu := Placeholder.breaks_of_topLevel? (k := Keyword.forUpdate) (by decide) 0 u
  have hv := Placeholder.breaks_of_topLevel? (k := Keyword.forUpdate) (by decide) 0 v
  simp only [hown.similar.topLevel?, hown.similar.length_eq] at hu ⊢
  simp only [(hown.similar.drop _).isEmpty_eq]
  split
  · exact .error (.unsupportedLocking d hown.similar)
  · exact .ok (limited_alike d.limitSyntax w ((hown.take _).trimEnd.append_const _)
      (hown.drop _) hu hv)

end Statement

namespace Planner

open Placeholder (Alike)

variable {p : Planner} {r : Request} {source : Text}

theorem alike_of_similar (h : Text.Similar r.source source)
    (hat : p.dialect = .sqlserver → '@' ∉ r.source) :
    Alike p.dialect.placeholderStyle r.source source := by
  have hstyle : ∀ d : Dialect, d.placeholderStyle = .atP → d = .sqlserver := by
    intro d
    cases d <;> decide
  exact .of_similar h fun hd => hat (hstyle p.dialect hd)

theorem statement_agree (h : Alike p.dialect.placeholderStyle r.source source) :
    Agree PlanError.Similar (Statement.Alike p.dialect.placeholderStyle) (p.statement r)
      (p.statement { r with source }) := by
  unfold statement
  rw [← Profile.of_eq_of_fold_eq h.similar]
  dsimp only
  split
  · exact .error (.filter _)
  · exact Statement.ofRequest_agree h _ _ _

/-- A planner does not tell requests with similar sources apart. A source with the sign `@` of the
marker `@p` would not do, for `@P` is no marker. -/
theorem plan_agree (p : Planner) (r : Request) {source : Text} (h : Text.Similar r.source source)
    (hat : p.dialect = .sqlserver → '@' ∉ r.source) :
    Profile.of r.source = Profile.of source ∧
      Agree PlanError.Similar Plan.Similar (p.plan r) (p.plan { r with source }) := by
  have hprofile : Profile.of r.source = Profile.of source := Profile.of_eq_of_fold_eq h
  refine ⟨hprofile, ?_⟩
  have hstatement := statement_agree (alike_of_similar h hat)
  unfold plan
  generalize p.statement r = a, p.statement { r with source } = b at hstatement
  cases hstatement with
  | error he => exact .error he
  | @ok s t hst =>
    have hpage := Statement.page_agree hst.text p.dialect r.orderFragments (p.window r)
    have hcount := Statement.count_alike hst.text p.dialect p.options.countAlias (.of r.source)
    dsimp only [pageText, countText]
    rw [← hprofile, show p.window { r with source } = p.window r from rfl,
      show Request.orderFragments { r with source } = r.orderFragments from rfl]
    generalize Statement.page p.dialect r.orderFragments (p.window r) s.text = a,
      Statement.page p.dialect r.orderFragments (p.window r) t.text = b at hpage
    cases hpage with
    | error he => exact .error he
    | ok hpaged => exact .ok ⟨hcount.restyle, hpaged.restyle, hst.parameters, rfl, rfl⟩

/-- A source in lower case on several lines, with a filter that brings a number of its own. -/
def severalLines : Request :=
  { source := "select a, max(b)\nfrom people\twhere b = ? or c = 'x'\ngroup by a;".toList
    parameters := [.null]
    filter := .raw "d > @p3".toList [] }

/-- The same source in upper case on one line. -/
def oneLine : Text := "SELECT A, MAX(B) FROM PEOPLE WHERE B = ? OR C = 'X' GROUP BY A;".toList

theorem plan_agree_severalLines :
    Text.Similar severalLines.source oneLine ∧ '@' ∉ severalLines.source ∧
      ∃ a b, ({ dialect := .sqlserver } : Planner).plan severalLines = .ok a ∧
        ({ dialect := .sqlserver } : Planner).plan { severalLines with source := oneLine } = .ok b ∧
        a.pageStatement =
          "select a, max(b)\nfrom people WHERE (b = @p4 or c = 'x') AND (d > @p3)\n".toList ++
            "group by a ORDER BY (SELECT NULL) OFFSET 0 ROWS FETCH NEXT 10 ROWS ONLY".toList ∧
        a.Similar b := by
  have hlines : Text.Similar severalLines.source oneLine := by decide +kernel
  have hat : '@' ∉ severalLines.source := by decide
  have hpage : (({ dialect := .sqlserver } : Planner).plan severalLines).map Plan.pageStatement =
      .ok ("select a, max(b)\nfrom people WHERE (b = @p4 or c = 'x') AND (d > @p3)\n".toList ++
        "group by a ORDER BY (SELECT NULL) OFFSET 0 ROWS FETCH NEXT 10 ROWS ONLY".toList) := by
    decide +kernel
  have hagree := (plan_agree { dialect := .sqlserver } severalLines hlines fun _ => hat).2
  generalize ({ dialect := .sqlserver } : Planner).plan severalLines = first,
    ({ dialect := .sqlserver } : Planner).plan { severalLines with source := oneLine } = second
    at hagree hpage
  cases hagree with
  | error h => exact absurd hpage (by simp [Except.map])
  | ok h => exact ⟨hlines, hat, _, _, rfl, rfl, Except.ok.inj hpage, h⟩

end Planner

end PagedQuery
