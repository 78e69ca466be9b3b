import PagedQuery.Proofs.Plan
import PagedQuery.Proofs.Statement.Normalization
import PagedQuery.Proofs.Trace.Carries

/-!
# What statements carry

Every stage keeps what a statement carries. Restricting one puts the placeholders
of the filter between those in front of the tail and those in it; counting and
paging, which cut at other keywords, keep all placeholders in their order. The
texts that other callers bring, a table, an alias or order keys, are neutral: they
close their quotes and have neither placeholders nor numbers.
-/
namespace PagedQuery

namespace Placeholder

/-- The text closes its quotes and has neither placeholders nor numbers of the style. -/
structure Neutral (style : PlaceholderStyle) (t : Text) : Prop where
  closed : Quote.Closed t
  count_eq : count t = 0
  unnumbered : highest style t = 0

instance (style : PlaceholderStyle) (t : Text) : Decidable (Neutral style t) :=
  decidable_of_iff (Quote.Closed t ∧ count t = 0 ∧ highest style t = 0)
    ⟨fun h => ⟨h.1, h.2.1, h.2.2⟩, fun h => ⟨h.closed, h.count_eq, h.unnumbered⟩⟩

theorem isBland_of_foldChar {c : Char} (h : isBland (Text.foldChar c) = true) :
    isBland c = true := by
  by_cases hm : c ∈ ['\'', '"', '`', '?', '$', '@', ':']
  · have hfold : Text.foldChar c = c := by
      simp only [List.mem_cons, List.not_mem_nil, or_false] at hm
      rcases hm with rfl | rfl | rfl | rfl | rfl | rfl | rfl <;> decide
    rwa [hfold] at h
  · simpa [isBland] using hm

theorem isBland_of_prefix_fold {k t : Text} (hk : k.all isBland = true) (h : k <+: Text.fold t) :
    (t.take k.length).all isBland = true := by
  have htake : k = (Text.fold t).take k.length := List.prefix_iff_eq_take.mp h
  refine List.all_eq_true.mpr fun c hc => isBland_of_foldChar ?_
  have hmem : Text.foldChar c ∈ k := by
    rw [htake, Text.fold_take]
    exact List.mem_map_of_mem hc
  exact List.all_eq_true.mp hk _ hmem

theorem Breaks.take {t : Text} (h : Breaks t) (n : Nat) : Breaks (t.take n) := by
  intro c hc
  cases t with
  | nil => exact absurd hc (by simp)
  | cons d t =>
    cases n with
    | zero => exact absurd hc (by simp)
    | succ n => exact h c hc

end Placeholder

namespace Trace

open Placeholder (Breaks Neutral isBland isSpacer)

variable {style : PlaceholderStyle} {m n u : Trace} {origins more : List Origin}

theorem carries_nil_iff : Carries style m [] ↔ Neutral style m.text := by
  constructor
  · intro h
    exact ⟨h.closed, h.count, h.unnumbered⟩
  · intro h
    refine ⟨h.closed, ?_, h.unnumbered⟩
    rw [List.map_nil, ← List.length_eq_zero_iff, length_placeholders, h.count_eq]

theorem carries_own {t : Text} (h : Neutral style t) : Carries style (own t) [] :=
  carries_nil_iff.mpr (by rwa [text_own])

theorem neutral_trim {t : Text} (h : Neutral style t) : Neutral style (Text.trim t) := by
  have hc := carries_nil_iff.mp (carries_own h).trim
  rwa [text_trim, text_own] at hc

theorem neutral_bland_append {s t : Text} (hs : s.all isBland = true) (ht : Neutral style t) :
    Neutral style (s ++ t) := by
  have hc := carries_nil_iff.mp ((carries_own ht).own_append hs)
  rwa [text_append, text_own, text_own] at hc

theorem neutral_of_isBland {t : Text} (h : t.all isBland = true) : Neutral style t := by
  have hown : Carries style (own t) [] := carries_of_isBland (by rwa [text_own])
  have hc := carries_nil_iff.mp hown
  rwa [text_own] at hc

theorem neutral_append {s t : Text} (hs : Neutral style s) (ht : Neutral style t)
    (hbreak : Breaks t) : Neutral style (s ++ t) := by
  have hc := carries_nil_iff.mp ((carries_own hs).append (carries_own ht) (by rwa [text_own]))
  rwa [text_append, text_own, text_own] at hc

theorem neutral_commaSeparated {keys : List Text} (h : ∀ key ∈ keys, Neutral style key) :
    Neutral style (SortKeys.commaSeparated keys) := by
  induction keys with
  | nil => exact neutral_of_isBland rfl
  | cons key keys ih =>
    cases keys with
    | nil =>
      have hone : SortKeys.commaSeparated [key] = key := by
        simp [SortKeys.commaSeparated]
      rw [hone]
      exact h key (by simp)
    | cons next keys =>
      have hmore : SortKeys.commaSeparated (key :: next :: keys) =
          key ++ (", ".toList ++ SortKeys.commaSeparated (next :: keys)) := by
        simp [SortKeys.commaSeparated, List.intercalate]
      rw [hmore]
      refine neutral_append (h key (by simp)) (neutral_bland_append (by decide) ?_) ?_
      · exact ih fun key' hkey' => h key' (List.mem_cons_of_mem key hkey')
      · exact Placeholder.breaks_append (by decide)
          (Placeholder.breaks_of_head? (by decide)) _

theorem Carries.append_neutral (h : Carries style m origins) {t : Text} (ht : Neutral style t)
    (hbreak : Breaks t) : Carries style (m ++ own t) origins := by
  have happ := h.append (carries_own ht) (by rwa [text_own])
  rwa [List.append_nil] at happ

theorem Carries.selectAll (h : Carries style m origins) : Carries style (selectAll m) origins :=
  h.own_append (by decide)

theorem Carries.derivedTable (h : Carries style m origins) (d : Dialect) {tableAlias : Text}
    (halias : Neutral style tableAlias) : Carries style (derivedTable d m tableAlias) origins := by
  have hname : Neutral style (d.derivedName tableAlias) := by
    unfold Dialect.derivedName
    split
    · exact neutral_bland_append (by decide) halias
    · exact halias
  refine (h.own_append (by decide)).append_neutral (neutral_bland_append (by decide) hname) ?_
  exact Placeholder.breaks_append (by decide) (Placeholder.breaks_of_head? (by decide)) _

theorem Carries.bareSource (h : Carries style m origins) : Carries style (bareSource m) origins :=
  (h.trim.trimEndBy fun c hc => by
    rw [of_decide_eq_true hc]
    decide).trimEnd

/-- The whole statement carries what the source does. -/
theorem carries_base {r : Request} {profile : Profile}
    (hsource : Carries style (label .source r.source) origins)
    (htable : ∀ t ∈ r.table, Neutral style t) (h : base r profile = .ok m) :
    Carries style m origins := by
  have hbare := hsource.bareSource
  have hrequired : ∀ {source table : Text}, Statement.requiredTable r source = .ok table →
      Carries style (selectAll (own table)) [] := by
    intro source table heq
    obtain ⟨t, ht, rfl⟩ := Statement.requiredTable_eq heq
    exact (carries_own (neutral_trim (htable t ht))).selectAll
  have hempty : ∀ {t : Trace}, t.text.isEmpty = true → Carries style t origins → origins = [] := by
    intro t ht hc
    have hcount := hc.count
    rw [List.isEmpty_iff.mp ht] at hcount
    exact List.length_eq_zero_iff.mp hcount.symm
  unfold base at h
  simp only at h
  split at h
  · split at h
    · exact Except.ok.inj h ▸ hbare
    · exact absurd h (by simp)
  split at h
  · exact Except.ok.inj h ▸ hbare.own_append (by decide)
  split at h
  · rename_i hnil
    cases hr : Statement.requiredTable r "<empty source>".toList with
    | error e =>
      rw [hr] at h
      exact absurd h (by simp [Except.map])
    | ok table =>
      rw [hr] at h
      rw [hempty hnil hbare]
      exact Except.ok.inj h ▸ hrequired hr
  split at h
  · exact Except.ok.inj h ▸ hbare.selectAll
  · cases hr : Statement.requiredTable r (bareSource (label .source r.source)).text with
    | error e =>
      rw [hr] at h
      exact absurd h (by simp [Except.map])
    | ok table =>
      rw [hr] at h
      have hwhere : Carries style (own Keyword.whereClause ++ bareSource (label .source r.source))
          origins := hbare.own_append (by decide)
      have hall := (hrequired hr).append hwhere (by
        rw [text_append, text_own]
        exact Placeholder.breaks_append (by decide) (Placeholder.breaks_of_head? (by decide)) _)
      rw [← List.append_assoc, List.nil_append] at hall
      exact Except.ok.inj h ▸ hall

/-- Text that is neutral, put in at a cut, changes nothing of what the trace carries. -/
theorem Carries.insert (h : Carries style m origins) {i : Nat}
    (hi : Quote.Closed (m.text.take i) ∧ Breaks (m.text.drop i)) {t : Text}
    (ht : Neutral style t) (hbreak : Breaks t) :
    Carries style (Trace.trimEnd (m.take i) ++ own t ++ m.drop i) origins := by
  obtain ⟨hl, hr⟩ := h.cut hi
  have hall := (hl.trimEnd.append_neutral ht hbreak).append hr (by rw [text_drop]; exact hi.2)
  rwa [List.take_append_drop] at hall

theorem cut_of_tailAt {clauses : Clauses} (h : Carries style m origins)
    (hclauses : Clauses.of? m.text = some clauses) :
    Quote.Closed (m.text.take clauses.tailAt) ∧ Breaks (m.text.drop clauses.tailAt) :=
  cut_of_first (fun _ hk => Keyword.mem_cuts_of_mem_trailing hk) _ h.closed
    (Clauses.eq_of_of? hclauses).2.2.2

theorem breaks_parenthesized (m : Trace) : Breaks (parenthesized m).text := by
  rw [text_parenthesized]
  exact Placeholder.breaks_of_head? rfl

theorem carries_head {clauses : Clauses} (h : Carries style m origins)
    (hclauses : Clauses.of? m.text = some clauses) :
    Carries style (head m clauses)
      (origins.take (Placeholder.count (m.text.take clauses.tailAt))) := by
  have hfront := (h.cut (cut_of_tailAt h hclauses)).1
  unfold head
  cases hw : clauses.whereAt with
  | none =>
    exact hfront.trimEnd.append_own (by decide) (Placeholder.breaks_of_head? (by decide))
  | some whereAt =>
    obtain ⟨hwhere, hbody⟩ := Clauses.occurs_whereAt hclauses hw
    have hle := Clauses.bodyAt_le_tailAt hclauses hw
    simp only
    split
    · have htake : (m.take clauses.tailAt).take whereAt = m.take whereAt := by
        rw [List.take_take, Nat.min_eq_left (by omega)]
      have hcut := cut_of_occurs (by decide) hwhere
      obtain ⟨hbefore, hbehind⟩ := hfront.cut (i := whereAt) (by
        rw [text_take, List.take_take, Nat.min_eq_left (by omega), List.drop_take]
        exact ⟨hcut.1, hcut.2.take _⟩)
      have hkeyword : (text ((m.drop whereAt).take Keyword.whereClause.length)).all isBland =
          true := by
        rw [text_take, text_drop]
        refine Placeholder.isBland_of_prefix_fold (by decide) ?_
        rw [← Text.fold_drop]
        exact hwhere.2.2
      have hsplit : (m.take clauses.tailAt).drop whereAt =
          (m.drop whereAt).take Keyword.whereClause.length ++
            (m.take clauses.tailAt).drop clauses.bodyAt := by
        have hfirst : (m.drop whereAt).take Keyword.whereClause.length =
            ((m.take clauses.tailAt).drop whereAt).take Keyword.whereClause.length := by
          rw [List.drop_take, List.take_take, Nat.min_eq_left (by omega)]
        rw [hfirst, hbody, ← List.drop_drop, List.take_append_drop]
      rw [hsplit] at hbehind
      have hcondition := (carries_bland_append_iff hkeyword).mp hbehind
      have hterm := hcondition.trim.parenthesized
      rw [htake] at hbefore
      have hopen := hbefore.append_own (t := Keyword.whereClause) (by decide)
        (Placeholder.breaks_of_head? (by decide))
      have hall := hopen.append hterm (breaks_parenthesized _)
      rwa [List.take_append_drop] at hall
    · exact hfront.trimEnd

/-- The restricted statement carries the placeholders of the filter where the tail begins. -/
theorem carries_restrict {clauses : Clauses} {fragment : Text} (h : Carries style m origins)
    (hclauses : Clauses.of? m.text = some clauses)
    (hfilter : Carries style (label .filter fragment) more) :
    Carries style (restrict m clauses fragment)
      (origins.take (Placeholder.count (m.text.take clauses.tailAt)) ++ more ++
        origins.drop (Placeholder.count (m.text.take clauses.tailAt))) := by
  have hcut := cut_of_tailAt h hclauses
  unfold restrict
  split
  · rename_i hempty
    have hnone : more = [] := by
      have hcount := hfilter.count
      rw [text_label, List.isEmpty_iff.mp hempty] at hcount
      exact List.length_eq_zero_iff.mp hcount.symm
    rw [hnone, List.append_nil, List.take_append_drop]
    unfold withCondition
    split
    · exact h.insert hcut (neutral_of_isBland (by decide)) (Placeholder.breaks_of_head? (by decide))
    · exact h
  · have hhead := (carries_head h hclauses).append_own (t := " AND ".toList) (by decide)
      (Placeholder.breaks_of_head? (by decide))
    have hterm := hhead.append hfilter.parenthesized (breaks_parenthesized _)
    exact hterm.append (h.cut hcut).2 (by rw [text_drop]; exact hcut.2)

/-- The restricted set operation carries the placeholders of the filter behind its own. -/
theorem carries_restrictSetOperation {fragment : Text} (d : Dialect) (h : Carries style m origins)
    (hfilter : Carries style (label .filter fragment) more) :
    Carries style (restrictSetOperation d m fragment) (origins ++ more) := by
  unfold restrictSetOperation
  split
  · rename_i hempty
    have hnone : more = [] := by
      have hcount := hfilter.count
      rw [text_label, List.isEmpty_iff.mp hempty] at hcount
      exact List.length_eq_zero_iff.mp hcount.symm
    rwa [hnone, List.append_nil]
  · have htable := (h.derivedTable d (neutral_of_isBland (t := Statement.sourceAlias)
      (by decide))).selectAll
    have hwhere : Carries style (own Keyword.whereClause ++ label .filter fragment) more :=
      hfilter.own_append (by decide)
    rw [List.append_assoc]
    refine htable.append hwhere ?_
    rw [text_append, text_own]
    exact Placeholder.breaks_append (by decide) (Placeholder.breaks_of_head? (by decide)) _

/-- An order is left out only when nothing in it is carried. -/
theorem carries_withoutOrder? (h : Carries style m origins) (hn : withoutOrder? m = some n) :
    Carries style n origins := by
  unfold withoutOrder? at hn
  split at hn
  · exact Option.some.inj hn ▸ h
  · rename_i orderAt horder
    have hends : ∀ k ∈ Keyword.limits, k ∈ Keyword.cuts := by decide
    have hend := cut_of_first hends (orderAt + Keyword.orderBy.length) h.closed rfl
    simp only at hn
    generalize hat : (Text.firstTopLevel? Keyword.limits (orderAt + Keyword.orderBy.length)
      m.text).getD m.text.length = endAt at hn hend
    split at hn
    · exact absurd hn (by simp)
    split at hn
    · exact absurd hn (by simp)
    rename_i hcount _
    have ho := Text.occurs_of_topLevel? horder
    have hle : orderAt ≤ endAt := by
      cases hf : Text.firstTopLevel? Keyword.limits (orderAt + Keyword.orderBy.length) m.text with
      | none =>
        rw [hf, Option.getD_none] at hat
        exact hat ▸ Nat.le_of_lt ho.1
      | some j =>
        rw [hf, Option.getD_some] at hat
        have := (Text.firstTopLevel?_eq_some_iff.mp hf).2.1
        omega
    have hcut := cut_of_occurs (by decide) ho
    obtain ⟨hfront, htail⟩ := h.cut hend
    have hbefore : Carries style (m.take orderAt)
        (origins.take (Placeholder.count (m.text.take endAt))) := by
      have hkeys := hfront.take_of_count (i := orderAt) (by
        rw [text_take, List.take_take, Nat.min_eq_left hle, List.drop_take]
        exact ⟨hcut.1, hcut.2.take _⟩) (by
        rw [text_take]
        exact Nat.eq_zero_of_not_pos hcount)
      rwa [List.take_take, Nat.min_eq_left hle] at hkeys
    have hall := hbefore.append htail (by rw [text_drop]; exact hend.2)
    rw [List.take_append_drop] at hall
    exact Option.some.inj hn ▸ hall

/-- A select list is replaced only when nothing in it is carried. -/
theorem carries_countDirectly? (h : Carries style m origins) (hn : countDirectly? m = some n) :
    Carries style n origins := by
  unfold countDirectly? at hn
  split at hn
  · exact absurd hn (by simp)
  · rename_i fromAt hfrom
    split at hn
    · exact absurd hn (by simp)
    · rename_i hno
      have hcount := Nat.eq_zero_of_not_pos (not_or.mp hno).1
      have hrest := (h.cut (cut_of_occurs (by decide) (Text.occurs_of_topLevel? hfrom))).2
      rw [hcount, List.drop_zero] at hrest
      exact Option.some.inj hn ▸ hrest.own_append (by decide)

theorem carries_countWrapped (d : Dialect) {tableAlias : Text} (h : Carries style m origins)
    (halias : Neutral style tableAlias) : Carries style (countWrapped d tableAlias m) origins :=
  (h.derivedTable d halias).own_append (by decide)

/-- The count statement carries what the statement does. -/
theorem carries_count (d : Dialect) {tableAlias : Text} (profile : Profile)
    (h : Carries style m origins) (halias : Neutral style tableAlias) :
    Carries style (count d tableAlias profile m) origins := by
  unfold count
  cases hs : withoutOrder? m with
  | none => exact carries_countWrapped d h halias
  | some stripped =>
    have hstripped := carries_withoutOrder? h hs
    simp only
    split
    · exact carries_countWrapped d hstripped halias
    · cases hc : countDirectly? stripped with
      | none => exact carries_countWrapped d hstripped halias
      | some counted => exact carries_countDirectly? hstripped hc

theorem carries_unlimited (d : Dialect) (h : Carries style m origins) :
    Carries style (unlimited d m) origins := by
  unfold unlimited
  split
  · exact (h.derivedTable d (neutral_of_isBland (by decide))).selectAll
  · exact h

theorem neutral_addedOrder (d : Dialect) (hasOrder : Bool) {keys : List Text}
    (h : ∀ key ∈ keys, Neutral style key) :
    Neutral style (Statement.addedOrder d hasOrder keys) := by
  unfold Statement.addedOrder
  split
  · exact neutral_of_isBland rfl
  split
  · split
    · exact neutral_of_isBland (by decide)
    · exact neutral_of_isBland rfl
  · exact neutral_bland_append (by decide) (neutral_commaSeparated h)

theorem breaks_addedOrder (d : Dialect) (hasOrder : Bool) (keys : List Text) :
    Breaks (Statement.addedOrder d hasOrder keys) := by
  have horder : Breaks Keyword.orderBy := Placeholder.breaks_of_head? (by decide)
  unfold Statement.addedOrder
  split
  · exact Placeholder.breaks_nil
  split
  · split
    · exact Placeholder.breaks_append (by decide) horder _
    · exact Placeholder.breaks_nil
  · exact Placeholder.breaks_append (by decide) horder _

theorem isBland_word (n : UInt64) : (Statement.word n).all isBland = true :=
  Placeholder.isBland_ofNat n.toNat

theorem isBland_limited {limit : LimitSyntax} (hlimit : limit ≠ .rowNum) (w : Window) :
    (Statement.limited limit w [] []).all isBland = true ∧
      Breaks (Statement.limited limit w [] []) := by
  cases limit with
  | rowNum => exact absurd rfl hlimit
  | limitOffset =>
    constructor
    · unfold Statement.limited
      simp only [List.all_append, isBland_word, Bool.and_true, List.all_nil]
      decide
    · exact Placeholder.breaks_of_head? rfl
  | offsetFetch =>
    constructor
    · unfold Statement.limited
      simp only [List.all_append, isBland_word, Bool.and_true, List.all_nil]
      decide
    · exact Placeholder.breaks_of_head? rfl

/-- Cutting the rows down to a window keeps what the statement and its locking clause carry, as long
as there is none where it would be lost. -/
theorem carries_limited {limit : LimitSyntax} (w : Window) (hm : Carries style m origins)
    (hn : Carries style n more) (hbreak : Breaks n.text) (hlost : limit = .rowNum → more = []) :
    Carries style (limited limit w m n) (origins ++ more) := by
  by_cases hlimit : limit = .rowNum
  · rw [hlost hlimit, hlimit, List.append_nil]
    refine (hm.own_append (by decide)).append_own ?_ ?_
    · simp only [List.all_append, isBland_word, Bool.and_true]
      decide
    · exact Placeholder.breaks_of_head? rfl
  · obtain ⟨hbland, hbreak'⟩ := isBland_limited hlimit w
    have heq : limited limit w m n = m ++ own (Statement.limited limit w [] []) ++ n := by
      cases limit with
      | rowNum => exact absurd rfl hlimit
      | limitOffset => rfl
      | offsetFetch => rfl
    rw [heq]
    exact (hm.append_own hbland hbreak').append hn hbreak

theorem carries_page {d : Dialect} {keys : List Text} {w : Window} (h : Carries style m origins)
    (hkeys : ∀ key ∈ keys, Neutral style key) (hn : page d keys w m = .ok n) :
    Carries style n origins := by
  have hu := carries_unlimited d h
  unfold page at hn
  simp only at hn
  generalize unlimited d m = u at hn hu
  have hcut := cut_of_topLevel? (k := Keyword.forUpdate) (by decide) 0 hu.closed rfl
  generalize (Text.topLevel? Keyword.forUpdate 0 u.text).getD u.text.length = lockAt at hn hcut
  split at hn
  · exact absurd hn (by simp)
  · rename_i hlocks
    obtain ⟨hfront, hlocking⟩ := hu.cut hcut
    have hordered := hfront.trimEnd.append_neutral
      (neutral_addedOrder d (Text.topLevel? Keyword.orderBy 0 u.text).isSome hkeys)
      (breaks_addedOrder d _ keys)
    have hlost : d.limitSyntax = .rowNum →
        origins.drop (Placeholder.count (u.text.take lockAt)) = [] := by
      intro hlimit
      have hd := Dialect.locksPages_of_rowNum hlimit
      have hempty : (text (u.drop lockAt)).isEmpty = true := by
        by_contra hne
        exact hlocks ⟨hne, by rw [hd]; decide⟩
      have hcount := hlocking.count
      rw [List.isEmpty_iff.mp hempty] at hcount
      exact List.length_eq_zero_iff.mp hcount.symm
    have hall := carries_limited w hordered hlocking (by rw [text_drop]; exact hcut.2) hlost
    rw [List.take_append_drop] at hall
    exact Except.ok.inj hn ▸ hall

end Trace

end PagedQuery
