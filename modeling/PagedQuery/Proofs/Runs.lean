import PagedQuery.Proofs.Entries
import PagedQuery.Proofs.Ranking

/-!
# Runs of steps on sort keys

Steps set all keys, put one behind the others, choose a dialect, or do nothing. After a run
the last step that set the keys and the keys that were put behind them since are all that is
left of it. The keys mean the same to a request whether they are given as they are or with
`ORDER BY` in front, unless a text given to a step begins with one itself.
-/
namespace PagedQuery

namespace Text

variable {s t : Text}

theorem trim_append_of_trimmed (hs : trim s = s) (hne : s ≠ []) (ht : trim t = t) (htne : t ≠ [])
    (u : Text) : trim (s ++ u ++ t) = s ++ u ++ t := by
  rw [trim_eq_self_iff] at hs ht ⊢
  constructor
  · intro c hc
    obtain ⟨d, v, rfl⟩ := List.exists_cons_of_ne_nil hne
    exact hs.1 c hc
  · intro c hc
    rw [List.getLast?_append_of_ne_nil _ htne] at hc
    exact ht.2 c hc

end Text

namespace SortKeys

open Text (trim)

variable {s : SortKeys} {d : Dialect} {setting : Setting} {step : Step} {steps : List Step}
  {key : Text} {keys : List Text}

/-- A key that is put behind the first one stands in front of the others. -/
theorem commaSeparated_append_cons (first key : Text) (keys : List Text) :
    commaSeparated ((first ++ ", ".toList ++ key) :: keys) = commaSeparated (first :: key :: keys) := by
  cases keys with
  | nil =>
    rw [Text.commaSeparated_singleton, Text.commaSeparated_cons_cons, Text.commaSeparated_singleton,
      List.append_assoc]
    rfl
  | cons next keys =>
    simp only [Text.commaSeparated_cons_cons, List.append_assoc]
    rfl

theorem commaSeparated_trimmed (hkeys : ∀ key ∈ keys, key ≠ [] ∧ trim key = key) :
    trim (commaSeparated keys) = commaSeparated keys ∧ (keys ≠ [] → commaSeparated keys ≠ []) := by
  induction keys with
  | nil => exact ⟨rfl, fun h => absurd rfl h⟩
  | cons key keys ih =>
    obtain ⟨⟨hne, hkey⟩, hkeys⟩ := List.forall_mem_cons.mp hkeys
    cases keys with
    | nil =>
      rw [Text.commaSeparated_singleton]
      exact ⟨hkey, fun _ => hne⟩
    | cons next keys =>
      obtain ⟨htrim, hnil⟩ := ih hkeys
      have h := Text.trim_append_of_trimmed hkey hne htrim (hnil (List.cons_ne_nil _ _)) ", ".toList
      rw [List.append_assoc] at h
      rw [Text.commaSeparated_cons_cons]
      exact ⟨h, fun _ => List.append_ne_nil_of_left_ne_nil hne _⟩

namespace Setting

/-- The setting has something to say. -/
def Effective : Setting → Prop
  | text keys => trim keys ≠ []
  | field name _ => trim name ≠ []
  | several keys => ∃ key ∈ keys, trim key ≠ []
  | ranked name values => trim name ≠ [] ∧ values ≠ []
  | random => True

instance : DecidablePred Effective
  | text _ => inferInstanceAs (Decidable (_ ≠ _))
  | field _ _ => inferInstanceAs (Decidable (_ ≠ _))
  | several keys => inferInstanceAs (Decidable (∃ key ∈ keys, trim key ≠ []))
  | ranked _ _ => inferInstanceAs (Decidable (_ ≠ _ ∧ _ ≠ _))
  | random => inferInstanceAs (Decidable True)

/-- The keys that a setting with something to say spells. -/
def spelling (d : Dialect) : Setting → Text
  | text keys => trim keys
  | field name direction => trim name ++ ' ' :: direction.keyword
  | several keys => commaSeparated ((keys.map trim).filter (· ≠ []))
  | ranked name values => caseText (trim name) values
  | random => d.randomKey

def texts : Setting → List Text
  | text keys => [keys]
  | field name _ | ranked name _ => [name]
  | several keys => keys
  | random => []

theorem keyword_trimmed (direction : Direction) :
    trim direction.keyword = direction.keyword ∧ direction.keyword ≠ [] := by
  cases direction <;> decide

theorem randomKey_trimmed (d : Dialect) : trim d.randomKey = d.randomKey ∧ d.randomKey ≠ [] := by
  cases d <;> decide

theorem entries_trimmed (keys : List Text) :
    ∀ key ∈ (keys.map trim).filter (· ≠ []), key ≠ [] ∧ trim key = key := by
  intro key hkey
  obtain ⟨hmem, hne⟩ := List.mem_filter.mp hkey
  obtain ⟨entry, -, rfl⟩ := List.mem_map.mp hmem
  exact ⟨by simpa using hne, Text.trim_trim entry⟩

theorem entries_ne_nil (h : (several keys).Effective) : (keys.map trim).filter (· ≠ []) ≠ [] := by
  obtain ⟨key, hkey, hne⟩ := h
  exact List.ne_nil_of_mem
    (List.mem_filter.mpr ⟨List.mem_map_of_mem hkey, decide_eq_true hne⟩)

/-- The keys of a setting are trimmed, and there are some when it has something to say. -/
theorem spelling_trimmed (h : setting.Effective) (d : Dialect) :
    trim (setting.spelling d) = setting.spelling d ∧ setting.spelling d ≠ [] := by
  cases setting with
  | text keys => exact ⟨Text.trim_trim keys, h⟩
  | field name direction =>
    obtain ⟨htrim, hne⟩ := keyword_trimmed direction
    have hboth := Text.trim_append_of_trimmed (Text.trim_trim name) h htrim hne [' ']
    rw [List.append_assoc] at hboth
    exact ⟨hboth, List.append_ne_nil_of_left_ne_nil h _⟩
  | several keys =>
    obtain ⟨htrim, hne⟩ := commaSeparated_trimmed (entries_trimmed keys)
    exact ⟨htrim, hne (entries_ne_nil h)⟩
  | ranked name values => exact ⟨trim_caseText _ _, List.cons_ne_nil _ _⟩
  | random => exact randomKey_trimmed d

/-- A setting is rendered as its keys when it has something to say, and as nothing otherwise. -/
theorem render_eq (d : Dialect) (setting : Setting) :
    setting.render d = if setting.Effective then setting.spelling d else [] := by
  cases setting with
  | text keys =>
    split
    · rfl
    · rename_i h
      exact not_not.mp h
  | field name direction =>
    split
    · rename_i h
      rw [render, if_neg fun hblank => h (Text.isAllBlank_iff.mp hblank)]
      rfl
    · rename_i h
      rw [render, if_pos (Text.isAllBlank_iff.mpr (not_not.mp h))]
  | several keys =>
    split
    · rfl
    · rename_i h
      have hnone : (keys.map trim).filter (· ≠ []) = [] := by
        refine List.filter_eq_nil_iff.mpr fun key hkey hne => h ?_
        obtain ⟨entry, hentry, rfl⟩ := List.mem_map.mp hkey
        exact ⟨entry, hentry, by simpa using hne⟩
      rw [render, hnone]
      rfl
  | ranked name values =>
    split
    · rename_i h
      exact render_ranked_trim h.1 h.2 d
    · rename_i h
      rw [render, if_pos]
      rw [Text.isAllBlank_iff, List.isEmpty_iff]
      exact not_and_or.mp h |>.imp not_not.mp not_not.mp
  | random => rfl

end Setting

theorem text_set (s : SortKeys) (setting : Setting) :
    (s.set setting).text = if setting.Effective then setting.spelling s.dialect else s.text := by
  rw [set, Setting.render_eq]
  split_ifs with h
  · obtain ⟨c, t, hkeys⟩ := List.exists_cons_of_ne_nil (setting.spelling_trimmed h s.dialect).2
    rw [hkeys]
  · rfl

theorem text_append (s : SortKeys) (key : Text) :
    (s.append key).text = if trim key = [] then s.text
      else if s.text = [] then trim key else s.text ++ ", ".toList ++ trim key := by
  unfold append
  cases hkey : trim key with
  | nil => rfl
  | cons c t => simp only [List.isEmpty_iff, if_neg (List.cons_ne_nil c t)]

namespace Step

/-- The setting that the step makes, if it makes one and it has something to say. -/
def setting? : Step → Option Setting
  | set setting => if setting.Effective then some setting else none
  | onlyIf holds step => if holds then step.setting? else none
  | useDialect _ | append _ => none

/-- The trimmed key that the step puts behind the others, if it is not blank. -/
def key? : Step → Option Text
  | append key => if trim key = [] then none else some (trim key)
  | onlyIf holds step => if holds then step.key? else none
  | useDialect _ | set _ => none

def dialect? : Step → Option Dialect
  | useDialect d => some d
  | onlyIf holds step => if holds then step.dialect? else none
  | set _ | append _ => none

/-- The texts that are given to the step, whether it uses them or not. -/
def texts : Step → List Text
  | set setting => setting.texts
  | append key => [key]
  | onlyIf _ step => step.texts
  | useDialect _ => []

theorem of_setting? {step : Step} (h : step.setting? = some setting) :
    setting.Effective ∧ setting.texts ⊆ step.texts := by
  induction step with
  | set made =>
    rw [setting?] at h
    split at h
    · rename_i heffective
      obtain rfl := Option.some.inj h
      exact ⟨heffective, List.Subset.refl _⟩
    · exact nomatch h
  | onlyIf holds step ih =>
    cases holds with
    | true => exact ih h
    | false => exact nomatch h
  | useDialect d => exact nomatch h
  | append key => exact nomatch h

theorem of_key? {step : Step} (h : step.key? = some key) :
    key ≠ [] ∧ ∃ entry ∈ step.texts, trim entry = key := by
  induction step with
  | append entry =>
    rw [key?] at h
    split at h
    · exact nomatch h
    · rename_i hne
      obtain rfl := Option.some.inj h
      exact ⟨hne, entry, List.mem_singleton_self entry, rfl⟩
  | onlyIf holds step ih =>
    cases holds with
    | true => exact ih h
    | false => exact nomatch h
  | useDialect d => exact nomatch h
  | set setting => exact nomatch h

end Step

theorem dialect_apply (s : SortKeys) (step : Step) :
    (s.apply step).dialect = step.dialect?.getD s.dialect := by
  induction step with
  | useDialect d => rfl
  | set setting =>
    rw [apply, set]
    split <;> rfl
  | append key =>
    rw [apply, append]
    split <;> rfl
  | onlyIf holds step ih =>
    cases holds with
    | true => exact ih
    | false => rfl

theorem text_apply (s : SortKeys) (step : Step) : (s.apply step).text =
    match step.setting?, step.key? with
    | some setting, _ => setting.spelling s.dialect
    | none, some key => if s.text = [] then key else s.text ++ ", ".toList ++ key
    | none, none => s.text := by
  induction step with
  | useDialect d => rfl
  | set setting =>
    rw [apply, text_set, Step.setting?]
    split <;> rfl
  | append key =>
    rw [apply, text_append, Step.setting?, Step.key?]
    split <;> rfl
  | onlyIf holds step ih =>
    cases holds with
    | true => exact ih
    | false => rfl

theorem applyAll_cons (s : SortKeys) (step : Step) (steps : List Step) :
    s.applyAll (step :: steps) = (s.apply step).applyAll steps := rfl

theorem applyAll_append (s : SortKeys) (steps more : List Step) :
    s.applyAll (steps ++ more) = (s.applyAll steps).applyAll more := List.foldl_append

/-- The dialect after the steps, when it is `d` before them. -/
def dialectAfter (d : Dialect) (steps : List Step) : Dialect :=
  (steps.filterMap Step.dialect?).getLastD d

theorem dialect_applyAll (s : SortKeys) (steps : List Step) :
    (s.applyAll steps).dialect = dialectAfter s.dialect steps := by
  induction steps generalizing s with
  | nil => rfl
  | cons step steps ih =>
    rw [applyAll_cons, ih, dialect_apply, dialectAfter, dialectAfter, List.filterMap_cons]
    cases step.dialect? with
    | none => rfl
    | some d => exact (List.getLastD_cons ..).symm

/-- Steps that set nothing put their keys behind those that are there. -/
theorem text_applyAll_behind (hs : s.text ≠ []) (h : ∀ step ∈ steps, step.setting? = none) :
    (s.applyAll steps).text = commaSeparated (s.text :: steps.filterMap Step.key?) := by
  induction steps generalizing s with
  | nil => exact (Text.commaSeparated_singleton _).symm
  | cons step steps ih =>
    obtain ⟨hstep, hsteps⟩ := List.forall_mem_cons.mp h
    have htext := text_apply s step
    rw [hstep] at htext
    rw [applyAll_cons, List.filterMap_cons]
    cases hkey : step.key? with
    | none =>
      rw [hkey] at htext
      rw [ih (by rw [htext]; exact hs) hsteps, htext]
    | some key =>
      rw [hkey] at htext
      dsimp only at htext
      rw [if_neg hs] at htext
      have hne : (s.apply step).text ≠ [] := by
        rw [htext, List.append_assoc]
        exact List.append_ne_nil_of_left_ne_nil hs _
      rw [ih hne hsteps, htext, commaSeparated_append_cons]

/-- Without keys to begin with, steps that set nothing leave the keys that they put in. -/
theorem text_applyAll_of_empty (hs : s.text = []) (h : ∀ step ∈ steps, step.setting? = none) :
    (s.applyAll steps).text = commaSeparated (steps.filterMap Step.key?) := by
  induction steps generalizing s with
  | nil => exact hs
  | cons step steps ih =>
    obtain ⟨hstep, hsteps⟩ := List.forall_mem_cons.mp h
    have htext := text_apply s step
    rw [hstep] at htext
    rw [applyAll_cons, List.filterMap_cons]
    cases hkey : step.key? with
    | none =>
      rw [hkey] at htext
      exact ih (htext.trans hs) hsteps
    | some key =>
      rw [hkey] at htext
      dsimp only at htext
      rw [if_pos hs] at htext
      dsimp only
      rw [← htext]
      refine text_applyAll_behind ?_ hsteps
      rw [htext]
      exact (Step.of_key? hkey).1

theorem last_setting (steps : List Step) : (∀ step ∈ steps, step.setting? = none) ∨
    ∃ before step after setting, steps = before ++ step :: after ∧
      step.setting? = some setting ∧ ∀ later ∈ after, later.setting? = none := by
  induction steps with
  | nil => exact .inl nofun
  | cons step steps ih =>
    rcases ih with hnone | ⟨before, last, after, setting, rfl, hset, hafter⟩
    · cases hstep : step.setting? with
      | none => exact .inl (List.forall_mem_cons.mpr ⟨hstep, hnone⟩)
      | some setting => exact .inr ⟨[], step, steps, setting, rfl, hstep, hnone⟩
    · exact .inr ⟨step :: before, last, after, setting, rfl, hset, hafter⟩

/-- Steps that set nothing after one that did leave its keys, spelled in the dialect in force at
that step, in front of those that they put in. -/
theorem text_applyAll_last (s : SortKeys) {before after : List Step} {step : Step}
    (hset : step.setting? = some setting) (hafter : ∀ step ∈ after, step.setting? = none) :
    (s.applyAll (before ++ step :: after)).text =
      commaSeparated (setting.spelling (dialectAfter s.dialect before) ::
        after.filterMap Step.key?) := by
  have htext := text_apply (s.applyAll before) step
  rw [hset, dialect_applyAll] at htext
  dsimp only at htext
  rw [applyAll_append, applyAll_cons, text_applyAll_behind _ hafter, htext]
  rw [htext]
  exact (Setting.spelling_trimmed (Step.of_setting? hset).1 _).2

theorem text_applyAll_induction {motive : Text → Prop} (hs : motive s.text)
    (hstep : ∀ step ∈ steps, ∀ s : SortKeys, motive s.text → motive (s.apply step).text) :
    motive (s.applyAll steps).text := by
  induction steps generalizing s with
  | nil => exact hs
  | cons step steps ih =>
    obtain ⟨hfirst, hrest⟩ := List.forall_mem_cons.mp hstep
    exact ih (hfirst s hs) hrest

/-- A property of keys that are set and of keys that are put behind others is one of the keys after
a step. -/
theorem text_apply_induction {motive : Text → Prop} (hs : motive s.text)
    (hset : ∀ setting, step.setting? = some setting → motive (setting.spelling s.dialect))
    (hkey : ∀ key, step.key? = some key → motive key ∧
      (s.text ≠ [] → motive (s.text ++ ", ".toList ++ key))) :
    motive (s.apply step).text := by
  rw [text_apply]
  cases hsetting : step.setting? with
  | some setting => exact hset setting hsetting
  | none =>
    cases h : step.key? with
    | none => exact hs
    | some key =>
      dsimp only
      split
      · exact (hkey key h).1
      · rename_i hne
        exact (hkey key h).2 hne

theorem trim_text_apply (hs : trim s.text = s.text) (step : Step) :
    trim (s.apply step).text = (s.apply step).text := by
  refine text_apply_induction (motive := fun t => trim t = t) hs (fun setting h => ?_)
    fun key h => ?_
  · exact (Setting.spelling_trimmed (Step.of_setting? h).1 _).1
  · obtain ⟨hne, entry, -, rfl⟩ := Step.of_key? h
    have htrim := Text.trim_trim entry
    exact ⟨htrim, fun hsome => Text.trim_append_of_trimmed hs hsome htrim hne _⟩

/-- The text begins with the words `ORDER BY`, in letters of either case. -/
def LeadsOrder (t : Text) : Prop := "ORDER BY".toList <+: Text.upper t

instance (t : Text) : Decidable (LeadsOrder t) := inferInstanceAs (Decidable (_ <+: _))

/-- What stands behind the first name or key of sort keys. -/
def separators : List Text := [", ".toList, " A".toList, " D".toList]

/-- Nothing that stands behind a name or key makes an `ORDER BY` of its beginning. -/
theorem not_leadsOrder_append {t u : Text} (h : ¬LeadsOrder t) (hu : u.take 2 ∈ separators) :
    ¬LeadsOrder (t ++ u) := by
  have hother : ∀ n < 8, ∀ separator ∈ separators,
      ¬("ORDER BY".toList.drop n).take 2 <+: Text.upper separator := by decide
  have hupper : (Text.upper u).take 2 = Text.upper (u.take 2) := List.map_take.symm
  rw [LeadsOrder, Text.upper_append]
  refine Text.not_begins_append h fun n hn _ hrest => hother n hn _ hu ?_
  rwa [hupper] at hrest

theorem not_leadsOrder_commaSeparated {keys : List Text} (h : ∀ key ∈ keys, ¬LeadsOrder key) :
    ¬LeadsOrder (commaSeparated keys) := by
  match keys with
  | [] => decide
  | [key] =>
    rw [Text.commaSeparated_singleton]
    exact h key List.mem_cons_self
  | key :: next :: keys =>
    rw [Text.commaSeparated_cons_cons]
    exact not_leadsOrder_append (h key List.mem_cons_self) (by decide : ", ".toList ∈ separators)

theorem Setting.not_leadsOrder_spelling (h : ∀ t ∈ setting.texts, ¬LeadsOrder (trim t)) (d : Dialect) :
    ¬LeadsOrder (setting.spelling d) := by
  cases setting with
  | text keys => exact h keys List.mem_cons_self
  | field name direction =>
    refine not_leadsOrder_append (h name List.mem_cons_self) ?_
    cases direction <;> decide
  | several keys =>
    refine not_leadsOrder_commaSeparated fun key hkey => ?_
    obtain ⟨entry, hentry, rfl⟩ := List.mem_map.mp (List.mem_of_mem_filter hkey)
    exact h entry hentry
  | ranked name values =>
    rintro ⟨rest, hrest⟩
    have hhead : some 'O' = some 'C' := congrArg List.head? hrest
    exact absurd hhead (by decide)
  | random => cases d <;> decide

theorem not_leadsOrder_apply (hs : ¬LeadsOrder s.text) (h : ∀ t ∈ step.texts, ¬LeadsOrder (trim t)) :
    ¬LeadsOrder (s.apply step).text := by
  refine text_apply_induction (motive := fun t => ¬LeadsOrder t) hs (fun setting hset => ?_)
    fun key hkey => ?_
  · exact Setting.not_leadsOrder_spelling (fun t ht => h t ((Step.of_setting? hset).2 ht)) _
  · obtain ⟨-, entry, hentry, rfl⟩ := Step.of_key? hkey
    refine ⟨h entry hentry, fun _ => ?_⟩
    rw [List.append_assoc]
    exact not_leadsOrder_append hs (by decide : ", ".toList ∈ separators)

/-- Trimmed keys that do not begin with `ORDER BY` are one entry with or without it. -/
theorem plan_sortBy (htrim : trim s.text = s.text) (hleads : ¬LeadsOrder s.text) (p : Planner)
    (r : Request) : p.plan (r.sortBy s) = p.plan (r.orderBy s.build) := by
  by_cases hempty : s.text = []
  · have hnone : s.isEmpty = true := List.isEmpty_iff.mpr hempty
    rw [Request.sortBy, if_pos hnone, build, if_pos hnone, Planner.plan_orderBy_blank rfl]
  · have hsome : ¬s.isEmpty = true := fun h => hempty (List.isEmpty_iff.mp h)
    have hword : Request.IsOrderBy "ORDER BY".toList := rfl
    have hplain : ¬Request.HasPrefix (trim s.text) := by
      rw [htrim]
      exact fun h => hleads ((by decide : "ORDER BY".toList <+: Request.orderByPrefix).trans h)
    have hentry := (Request.orderKeys_word_eq_iff (w := [' ']) (f := s.text) hword (by decide)
      (by decide)).mpr ⟨rfl, by rw [htrim]; exact hempty, hplain⟩
    rw [Request.sortBy, if_neg hsome, build, if_neg hsome]
    exact (Planner.plan_orderBy_congr hentry).symm

/-- What a list of steps makes of sort keys that are empty at first. -/
structure Run (d : Dialect) (steps : List Step) (s : SortKeys) : Prop where
  /-- Either no step sets anything and the keys are those that are put in, or the last step that does
  is all that is left of it and of the steps before it, apart from the dialect. -/
  text_eq :
    (∀ step ∈ steps, step.setting? = none) ∧
        s.text = commaSeparated (steps.filterMap Step.key?) ∨
      ∃ before step after setting, steps = before ++ step :: after ∧
        step.setting? = some setting ∧ (∀ later ∈ after, later.setting? = none) ∧
        s.text = commaSeparated (setting.spelling (dialectAfter d before) ::
          after.filterMap Step.key?)
  trim_text : trim s.text = s.text
  build_eq_nil_iff : s.build = [] ↔ s.isEmpty = true
  /-- Unless a text that is given begins with `ORDER BY`, the keys may be given with it or without. -/
  plan_eq : (∀ step ∈ steps, ∀ t ∈ step.texts, ¬LeadsOrder (trim t)) →
    ∀ (p : Planner) (r : Request), p.plan (r.sortBy s) = p.plan (r.orderBy s.build)

/-- After any steps the keys are those of the last setting that had something to say, in the dialect
in force at that moment, and the keys put behind them since. They are trimmed, and a request that
takes them is planned as with an entry of their text behind `ORDER BY`. -/
theorem run_applyAll (d : Dialect) (steps : List Step) :
    Run d steps (({ dialect := d } : SortKeys).applyAll steps) := by
  have htrim : trim (({ dialect := d } : SortKeys).applyAll steps).text = _ :=
    text_applyAll_induction (motive := fun t => trim t = t) rfl
      fun step _ s hs => trim_text_apply hs step
  exact
    { text_eq := by
        rcases last_setting steps with hnone | ⟨before, step, after, setting, rfl, hset, hafter⟩
        · exact .inl ⟨hnone, text_applyAll_of_empty rfl hnone⟩
        · exact .inr ⟨before, step, after, setting, rfl, hset, hafter,
            text_applyAll_last _ hset hafter⟩
      trim_text := htrim
      build_eq_nil_iff := by
        rw [← List.isEmpty_iff, build_isEmpty]
      plan_eq := by
        intro h
        have hempty : ¬LeadsOrder [] := by decide
        exact plan_sortBy htrim (text_applyAll_induction (motive := fun t => ¬LeadsOrder t) hempty
          fun step hstep s hs => not_leadsOrder_apply hs (h step hstep)) }

/-- A random order is spelled for the dialect in force when it is set, and stays when nothing is
left of a later setting. -/
example : ({} : SortKeys).applyAll
    [.append "age".toList, .useDialect .sqlserver, .onlyIf true (.set .random),
      .append " id ".toList, .useDialect .mysql, .set (.several ["".toList, " ".toList]),
      .onlyIf false (.set .random), .append "\t".toList] =
    ⟨"NEWID(), id".toList, .mysql⟩ := by decide

end SortKeys

end PagedQuery
