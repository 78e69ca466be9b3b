import PagedQuery.Proofs.Plan
import PagedQuery.Proofs.Statement.Standing

/-!
# Surroundings of a source

A source matters to a plan by what is left of it when it is trimmed and by its profile.
So blanks and semicolons around a source that stands by itself do not matter, as long as
nothing is left over of them and they do not hide its first word. They do matter
otherwise: semicolons that are left over are shown by every plan and every error, and a
whole statement whose first word is hidden is taken for a condition.
-/
namespace PagedQuery

namespace Statement

open Text (surrounds fold mentions startsWith)

variable {s before after token : Text}

theorem base_congr_source {t : Text} (hbare : bareSource s = bareSource t)
    (hprofile : (Profile.of s).Agree (Profile.of t)) (r : Request) :
    base { r with source := s } (.of s) = base { r with source := t } (.of t) := by
  have hrequired : ∀ u, requiredTable { r with source := s } u =
      requiredTable { r with source := t } u := fun _ => rfl
  simp only [base, hbare, ← hprofile.hasSelect_eq, hrequired]
  split
  · rw [hprofile.hasFrom_eq ‹_›]
  · rfl

section

variable {t u : Text}

theorem count_semicolon_behind (hu : ';' ∉ u) : (u ++ t).count ';' = t.count ';' := by
  rw [List.count_append, List.count_eq_zero_of_not_mem hu, Nat.zero_add]

theorem count_semicolon_before (hu : ';' ∉ u) : (t ++ u).count ';' = t.count ';' := by
  rw [List.count_append, List.count_eq_zero_of_not_mem hu, Nat.add_zero]

end

theorem count_semicolon_base {r : Request} (htable : r.table = none) (profile : Profile) :
    ∃ t, t.count ';' = (bareSource r.source).count ';' ∧ (base r profile = .ok t ∨
      base r profile = .error (.missingTable t) ∨ base r profile = .error (.missingFrom t)) := by
  have hrequired : ∀ u, requiredTable r u = .error (.missingTable u) := by
    intro u
    rw [requiredTable, htable]
    rfl
  unfold base
  simp only [hrequired]
  split
  · split
    · exact ⟨_, rfl, .inl rfl⟩
    · exact ⟨_, rfl, .inr (.inr rfl)⟩
  · split
    · exact ⟨_, count_semicolon_behind (by decide), .inl rfl⟩
    · split
      · rename_i hempty
        refine ⟨_, ?_, .inr (.inl rfl)⟩
        rw [List.isEmpty_iff.mp hempty]
        decide
      · split
        · exact ⟨_, count_semicolon_behind (by decide), .inl rfl⟩
        · exact ⟨_, rfl, .inr (.inl rfl)⟩

theorem count_semicolon_trimEnd (t : Text) : (Text.trimEnd t).count ';' = t.count ';' := by
  obtain ⟨u, hu, hall⟩ := Text.trimEnd_append_blanks t
  have hnot : ';' ∉ u := fun hmem => absurd (List.all_eq_true.mp hall _ hmem) (by decide)
  conv_rhs => rw [hu, count_semicolon_before hnot]

theorem count_semicolon_withCondition (t : Text) (clauses : Clauses) :
    (withCondition t clauses).count ';' = t.count ';' := by
  unfold withCondition
  split
  · rw [List.count_append, count_semicolon_before (by decide), count_semicolon_trimEnd,
      ← List.count_append, List.take_append_drop]
  · rfl

theorem count_semicolon_word (n : UInt64) : (word n).count ';' = 0 := by
  refine List.count_eq_zero_of_not_mem fun hmem => ?_
  exact absurd (Nat.isDigit_of_mem_toDigits (by decide) (by decide) hmem) (by decide)

theorem count_semicolon_unlimited (t : Text) : (unlimited .mysql t).count ';' = t.count ';' := by
  have hselect : "SELECT * FROM ".toList.count ';' = 0 := by decide
  have hopening : "(".toList.count ';' = 0 := by decide
  have hclosing : ") ".toList.count ';' = 0 := by decide
  have hname : (Dialect.mysql.derivedName pageAlias).count ';' = 0 := by decide
  unfold unlimited selectAll Dialect.derivedTable
  split
  · simp only [List.count_append, hselect, hopening, hclosing, hname, Nat.zero_add, Nat.add_zero]
  · rfl

theorem count_semicolon_limited (w : Window) (t locking : Text) :
    (limited .limitOffset w t locking).count ';' = t.count ';' + locking.count ';' := by
  have hlimit : " LIMIT ".toList.count ';' = 0 := by decide
  have hoffset : " OFFSET ".toList.count ';' = 0 := by decide
  unfold limited
  simp only [List.count_append, hlimit, hoffset, count_semicolon_word, Nat.add_zero]

theorem count_semicolon_page (w : Window) (t : Text) :
    ∃ pageText, page .mysql [] w t = .ok pageText ∧ pageText.count ';' = t.count ';' := by
  have horder : ∀ hasOrder, addedOrder .mysql hasOrder [] = [] := by decide
  cases hpage : page .mysql [] w t with
  | error e => exact absurd (eq_of_page_error hpage).1 (by decide)
  | ok pageText =>
    obtain ⟨rfl, -⟩ := eq_of_page rfl hpage
    refine ⟨_, rfl, ?_⟩
    rw [horder, List.append_nil]
    refine (count_semicolon_limited _ _ _).trans ?_
    rw [count_semicolon_trimEnd, ← List.count_append, List.take_append_drop,
      count_semicolon_unlimited]

end Statement

namespace Planner

open Statement (Standing bareSource)

variable {s before after : Text}

/-- A source matters to a plan by what is left of it and by its profile. -/
theorem plan_congr_source {t : Text} (hbare : bareSource s = bareSource t)
    (hprofile : (Profile.of s).Agree (Profile.of t)) (p : Planner) (r : Request) :
    p.plan { r with source := s } = p.plan { r with source := t } := by
  have hstatement : p.statement { r with source := s } = p.statement { r with source := t } := by
    simp only [statement, Statement.ofRequest, Statement.base_congr_source hbare hprofile,
      hprofile.hasSetOperation_eq]
  have hcount : p.countText { r with source := s } = p.countText { r with source := t } := by
    funext statement
    simp only [countText, Statement.count, hprofile.isComplex_eq]
  unfold plan
  rw [hstatement, hcount]
  rfl

/-- The page statement of a plan, or the text that an error cites. -/
def shown : Except PlanError Plan → Text
  | .ok plan => plan.pageStatement
  | .error (.missingTable t) | .error (.missingFrom t) | .error (.unsupportedLocking _ t) => t
  | .error (.filter _) => []

def plain : Planner := { dialect := .mysql }

theorem plan_of_statement_error {p : Planner} {r : Request} {e : PlanError}
    (h : p.statement r = .error e) : p.plan r = .error e := by
  unfold plan
  rw [h]

/-- A request that is nothing but a source has its base for a statement, with a condition perhaps. -/
theorem statement_source {p : Planner} {source t : Text}
    (h : Statement.base { source } (.of source) = .ok t) :
    p.statement { source } = .error (.missingFrom t) ∨
      ∃ st, p.statement { source } = .ok st ∧ st.text.count ';' = t.count ';' := by
  simp only [statement, Filter.render, Statement.ofRequest, h]
  split
  · exact .inr ⟨_, rfl, rfl⟩
  · split
    · exact .inl rfl
    · exact .inr ⟨_, rfl, Statement.count_semicolon_withCondition t _⟩

theorem statement_source_error {p : Planner} {source : Text} {e : PlanError}
    (h : Statement.base { source } (.of source) = .error e) :
    p.statement { source } = .error e := by
  simp only [statement, Filter.render, Statement.ofRequest, h]

theorem count_semicolon_plan {source : Text} {st : Statement}
    (h : plain.statement { source } = .ok st) :
    (shown (plain.plan { source })).count ';' = st.text.count ';' := by
  obtain ⟨pageStatement, hpage, hcount⟩ :=
    Statement.count_semicolon_page (plain.window { source }) st.text
  have hpage' : plain.pageText { source } st = .ok pageStatement := hpage
  unfold plan
  rw [h]
  dsimp only
  rw [hpage']
  exact hcount

theorem count_semicolon_shown (source : Text) :
    (shown (plain.plan { source })).count ';' = (bareSource source).count ';' := by
  obtain ⟨t, hcount, hbase⟩ :=
    Statement.count_semicolon_base (r := { source }) rfl (Profile.of source)
  rw [← hcount]
  rcases hbase with hok | htable | hfrom
  · rcases statement_source (p := plain) hok with herror | ⟨st, hst, htext⟩
    · rw [plan_of_statement_error herror]
      rfl
    · rw [count_semicolon_plan hst, htext]
  · rw [plan_of_statement_error (statement_source_error htable)]
    rfl
  · rw [plan_of_statement_error (statement_source_error hfrom)]
    rfl

/-- A whole statement is never taken for a condition. -/
theorem plan_ne_missingTable {p : Planner} {source u : Text}
    (hselect : (Profile.of source).hasSelect = true) :
    p.plan { source } ≠ .error (.missingTable u) := by
  have hbase : Statement.base { source } (.of source) =
      if (Profile.of source).hasFrom = true then .ok (bareSource source)
      else .error (.missingFrom (bareSource source)) := if_pos hselect
  by_cases hfrom : (Profile.of source).hasFrom = true
  · rw [if_pos hfrom] at hbase
    rcases statement_source (p := p) hbase with herror | ⟨st, hst, -⟩
    · rw [plan_of_statement_error herror]
      exact fun h => nomatch h
    · intro h
      unfold plan at h
      rw [hst] at h
      dsimp only at h
      split at h
      · rename_i e hpage
        obtain rfl := Except.error.inj h
        exact absurd (Statement.eq_of_page_error hpage).2 (by simp)
      · exact absurd h (by simp)
  · rw [if_neg hfrom] at hbase
    rw [plan_of_statement_error (statement_source_error hbase)]
    exact fun h => nomatch h

/-- A blank in front of a whole statement that is no ASCII white space makes a condition of it. -/
theorem plan_hidden (hs : Standing s) (hb : before.all Text.isBlank = true)
    (ha : after.all Text.surrounds = true) (hascii : before.all Text.isAsciiSpace = false)
    (hselect : (Profile.of s).hasSelect = true) (p : Planner) :
    p.plan { source := before ++ s ++ after } =
      .error (.missingTable (s ++ Text.leftover after)) := by
  have hhidden : (Profile.of (before ++ s ++ after)).hasSelect = false := by
    rw [hs.hasSelect_between hb ha, hascii, Bool.false_and]
  have hbare : bareSource (before ++ s ++ after) = s ++ Text.leftover after :=
    hs.bareSource_between hb after
  obtain ⟨hfrom, htable⟩ := hs.not_fromLed_of_hasSelect hselect (Text.leftover after)
  have hempty : (s ++ Text.leftover after).isEmpty = false := by
    rw [Bool.eq_false_iff, Ne, List.isEmpty_iff, List.append_eq_nil_iff]
    exact fun h => hs.ne_nil h.1
  refine plan_of_statement_error (statement_source_error ?_)
  unfold Statement.base
  simp only [hhidden, hbare, hfrom, hempty, htable]
  rfl

/-- Any mix of blanks and semicolons around a source that stands by itself leaves every plan and
every error as it is, exactly when the semicolons behind it stand together and no blank but ASCII
white space stands in front of a whole statement. -/
theorem plan_surrounded_iff (hs : Standing s) (hb : before.all Text.isBlank = true)
    (ha : after.all Text.surrounds = true) :
    (∀ (p : Planner) (r : Request), r.source = s →
      p.plan { r with source := before ++ s ++ after } = p.plan r) ↔
      Text.Together after ∧
        (before.all Text.isAsciiSpace = true ∨ (Profile.of s).hasSelect = false) := by
  have hbare : bareSource (before ++ s ++ after) = s ++ Text.leftover after :=
    hs.bareSource_between hb after
  have hself : bareSource s = s := Statement.bareSource_eq_self hs.trim_eq hs.not_semicolon
  constructor
  · intro h
    have hplan := h plain { source := s } rfl
    constructor
    · rw [← Text.leftover_eq_nil_iff]
      refine Classical.byContradiction fun hne => ?_
      have hcount := congrArg (fun e => (shown e).count ';') hplan
      simp only [count_semicolon_shown, hbare, hself, List.count_append] at hcount
      have hpos := List.count_pos_iff.mpr (Text.mem_leftover ha hne)
      omega
    · refine Classical.byContradiction fun hnot => ?_
      rw [not_or, Bool.not_eq_true, Bool.not_eq_false] at hnot
      rw [plan_hidden hs hb ha hnot.1 hnot.2] at hplan
      exact plan_ne_missingTable hnot.2 hplan.symm
  · rintro ⟨htogether, hshown⟩ p r rfl
    rw [Text.leftover_eq_nil_iff.mpr htogether, List.append_nil] at hbare
    exact (plan_congr_source (hself.trans hbare.symm) (hs.agree hb ha hshown) p r).symm

def idsOfUsers : Text := "SELECT id FROM users".toList

theorem standing_idsOfUsers : Standing idsOfUsers where
  trim_eq := by decide
  not_semicolon := by decide
  form := .inr (.inr (by decide))
  complete := by decide

theorem plan_surrounded_idsOfUsers :
    Standing idsOfUsers ∧ "\n\t ".toList.all Text.isBlank = true ∧
      "\u3000;; \x0b".toList.all Text.surrounds = true ∧ ∀ (p : Planner) (r : Request),
        r.source = idsOfUsers →
          p.plan { r with source := "\n\t ".toList ++ idsOfUsers ++ "\u3000;; \x0b".toList } =
            p.plan r :=
  ⟨standing_idsOfUsers, by decide, by decide,
    (plan_surrounded_iff standing_idsOfUsers (by decide) (by decide)).mpr
      ⟨⟨"\u3000".toList, ";;".toList, " \x0b".toList, by decide⟩, .inl (by decide)⟩⟩

/-- Two semicolons that stand apart are not both taken off, and a no-break space in front hides the
first word. -/
theorem plan_depends_on_surroundings :
    Standing idsOfUsers ∧ "; ;".toList.all Text.surrounds = true ∧ Text.isBlank '\u00a0' = true ∧
      plain.plan { source := idsOfUsers ++ "; ;".toList } ≠ plain.plan { source := idsOfUsers } ∧
      plain.plan { source := '\u00a0' :: idsOfUsers } ≠ plain.plan { source := idsOfUsers } := by
  refine ⟨standing_idsOfUsers, by decide, by decide, fun h => ?_, fun h => ?_⟩
  · have hcount := congrArg (fun e => (shown e).count ';') h
    simp only [count_semicolon_shown] at hcount
    exact absurd hcount (by decide)
  · have hhidden : plain.plan { source := ['\u00a0'] ++ idsOfUsers ++ [] } =
        .error (.missingTable (idsOfUsers ++ Text.leftover [])) :=
      plan_hidden standing_idsOfUsers (by decide) rfl (by decide) (by decide) plain
    rw [List.append_nil] at hhidden
    exact plan_ne_missingTable (by decide) (h.symm.trans hhidden)

end Planner

end PagedQuery
