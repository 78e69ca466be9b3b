import Mathlib.Data.List.Nodup
import PagedQuery.Proofs.Trace.Alignment

/-!
# Indices of placeholders

In a numbered style the placeholders of a statement get consecutive indices after
the highest number that the statement already has. Nothing else of the statement
changes. The origin of a placeholder in a trace thereby tells the index with which
it stands in the numbered statement.
-/
namespace PagedQuery

namespace Placeholder

/-- The text with the given texts for its placeholders, one after another, read from the
state `q`. -/
def fillFrom (q : Quote) : List Text → Text → Text
  | _, [] => []
  | tokens, c :: t =>
    if q = .outside ∧ c = '?' then tokens.headD [] ++ fillFrom (q.step c) tokens.tail t
    else c :: fillFrom (q.step c) tokens t

def fill (tokens : List Text) (t : Text) : Text := fillFrom .outside tokens t

/-- The index that a placeholder of the text gets, by its place among the placeholders. -/
def index (style : PlaceholderStyle) (t : Text) (place : Nat) : UInt64 :=
  highest style t + 1 + UInt64.ofNat place

/-- The tokens of the placeholders of the text. -/
def tokens (style : PlaceholderStyle) (t : Text) : List Text :=
  (List.range (count t)).map fun place => style.token (index style t place)

theorem numberFrom_eq_fillFrom (style : PlaceholderStyle) (used : UInt64) (q : Quote) (t : Text) :
    numberFrom style used q t = fillFrom q
      ((List.range (countFrom q t)).map fun i => style.token (used + 1 + UInt64.ofNat i)) t := by
  induction t generalizing used q with
  | nil => rfl
  | cons c t ih =>
    rw [numberFrom, fillFrom, countFrom]
    split
    · have hsucc : ∀ i : Nat, used + 1 + UInt64.ofNat (i + 1) = used + 1 + 1 + UInt64.ofNat i := by
        intro i
        rw [UInt64.ofNat_add, UInt64.add_comm (UInt64.ofNat i), ← UInt64.add_assoc]
        rfl
      rw [Nat.add_comm 1, List.range_succ_eq_map, List.map_cons, List.map_map, List.headD_cons,
        List.tail_cons, ih]
      simp only [Function.comp_def, Nat.succ_eq_add_one, hsucc]
      rw [show UInt64.ofNat 0 = 0 from rfl, UInt64.add_zero]
    · rw [Nat.zero_add, ih]

theorem fillFrom_of_countFrom {q : Quote} {t : Text} (ht : countFrom q t = 0)
    (tokens : List Text) : fillFrom q tokens t = t := by
  induction t generalizing q with
  | nil => rfl
  | cons c t ih =>
    rw [countFrom] at ht
    by_cases hc : q = .outside ∧ c = '?'
    · rw [if_pos hc] at ht
      omega
    · rw [fillFrom, if_neg hc, ih (by rw [if_neg hc] at ht; omega)]

theorem numberFrom_of_countFrom {style : PlaceholderStyle} {used : UInt64} {q : Quote} {t : Text}
    (ht : countFrom q t = 0) : numberFrom style used q t = t := by
  rw [numberFrom_eq_fillFrom, fillFrom_of_countFrom ht]

theorem restyle_eq_fill {style : PlaceholderStyle} (h : style ≠ .question) (t : Text) :
    restyle style t = fill (tokens style t) t := by
  cases style with
  | question => exact absurd rfl h
  | dollar => exact numberFrom_eq_fillFrom _ _ _ t
  | atP => exact numberFrom_eq_fillFrom _ _ _ t
  | colon => exact numberFrom_eq_fillFrom _ _ _ t

theorem index_eq_index_iff {style : PlaceholderStyle} {s t : Text} {place : Nat} :
    index style s place = index style t place ↔ highest style s = highest style t := by
  rw [index, index, UInt64.add_left_inj, UInt64.add_left_inj]

end Placeholder

namespace Statement

open Placeholder (Breaks Neutral isBland highest highest_append)

variable {style : PlaceholderStyle} {d : Dialect} {keys : List Text} {s t u : Text}

theorem highest_nil : highest style [] = 0 := by
  unfold highest
  split <;> rfl

theorem highest_append_of_isBland (hs : Quote.Closed s) (ht : t.all isBland = true)
    (hbreak : Breaks t) : highest style (s ++ t) = highest style s := by
  have hnone : highest style t = 0 := by
    rw [← List.append_nil t, Placeholder.highest_of_isBland ht, highest_nil]
  rw [highest_append hs hbreak, hnone, Placeholder.max_comm, Placeholder.zero_max]

theorem highest_trimEnd (h : Quote.Closed t) :
    Quote.Closed (Text.trimEnd t) ∧ highest style (Text.trimEnd t) = highest style t := by
  obtain ⟨u, hu, hblank⟩ := Text.trimEnd_append_blanks t
  have hspacer : u.all Placeholder.isSpacer = true := List.all_eq_true.mpr fun c hc =>
    Placeholder.isSpacer_of_isBlank (List.all_eq_true.mp hblank c hc)
  have hbland := Placeholder.isBland_of_isSpacer hspacer
  have hclosed : Quote.Closed (Text.trimEnd t) := by
    rw [hu, Quote.Closed, Quote.after_append, Placeholder.after_of_isBland hbland] at h
    exact h
  refine ⟨hclosed, ?_⟩
  have hall : highest style (Text.trimEnd t ++ u) = highest style (Text.trimEnd t) :=
    highest_append_of_isBland hclosed hbland (Placeholder.breaks_of_isSpacer hspacer)
  rw [← hu] at hall
  exact hall.symm

theorem highest_between {before behind : Text} (hbefore : before.all isBland = true)
    (ht : Quote.Closed t) (hbehind : behind.all isBland = true) (hbreak : Breaks behind) :
    Quote.Closed (before ++ t ++ behind) ∧
      highest style (before ++ t ++ behind) = highest style t := by
  have hclosed := (Trace.closed_of_isBland hbefore).append ht
  refine ⟨hclosed.append (Trace.closed_of_isBland hbehind), ?_⟩
  rw [highest_append_of_isBland hclosed hbehind hbreak, Placeholder.highest_of_isBland hbefore]

theorem highest_unlimited (h : Quote.Closed t) :
    Quote.Closed (unlimited d t) ∧ highest style (unlimited d t) = highest style t := by
  unfold unlimited
  split
  · unfold selectAll Dialect.derivedTable
    rw [List.append_assoc ("(".toList ++ t), ← List.append_assoc _ ("(".toList ++ t),
      ← List.append_assoc _ "(".toList t]
    refine highest_between ?_ h ?_ ?_
    · decide
    · cases d <;> decide
    · exact Placeholder.breaks_append (by decide) (Placeholder.breaks_of_head? (by decide)) _
  · exact ⟨h, rfl⟩

/-- The limit of a window stands between two texts. -/
theorem limited_eq_append {limit : LimitSyntax} (hlimit : limit ≠ .rowNum) (w : Window)
    (t u : Text) : limited limit w t u = t ++ limited limit w [] [] ++ u := by
  cases limit with
  | rowNum => exact absurd rfl hlimit
  | limitOffset =>
    unfold limited
    simp only [List.nil_append, List.append_nil, List.append_assoc]
  | offsetFetch =>
    unfold limited
    simp only [List.nil_append, List.append_nil, List.append_assoc]

theorem exists_rowNum_eq (w : Window) : ∃ before behind, before.all isBland = true ∧
    behind.all isBland = true ∧ Breaks behind ∧
      ∀ t u, limited .rowNum w t u = before ++ t ++ behind := by
  refine ⟨"SELECT * FROM (SELECT row_.*, ROWNUM rownum_ FROM (".toList,
    ") row_ WHERE ROWNUM <= ".toList ++ (word w.last ++ (") WHERE rownum_ > ".toList ++
      word w.offset)), ?_, ?_, ?_, fun t u => ?_⟩
  · decide
  · simp only [List.all_append, Trace.isBland_word, Bool.and_true, Bool.true_and]
    decide
  · exact Placeholder.breaks_of_head? rfl
  · have hrow : limited .rowNum w t u =
        "SELECT * FROM (SELECT row_.*, ROWNUM rownum_ FROM (".toList ++ t ++
          ") row_ WHERE ROWNUM <= ".toList ++ word w.last ++ ") WHERE rownum_ > ".toList ++
            word w.offset := rfl
    rw [hrow, List.append_assoc, List.append_assoc, List.append_assoc]

theorem highest_limited {limit : LimitSyntax} (w : Window) (ht : Quote.Closed t)
    (hbreak : Breaks u) (hlost : limit = .rowNum → u = []) :
    highest style (limited limit w t u) = max (highest style t) (highest style u) := by
  by_cases hlimit : limit = .rowNum
  · rw [hlimit, hlost hlimit, highest_nil, Placeholder.max_comm, Placeholder.zero_max]
    obtain ⟨before, behind, hbefore, hbehind, hbreaks, heq⟩ := exists_rowNum_eq w
    rw [heq]
    exact (highest_between hbefore ht hbehind hbreaks).2
  · obtain ⟨hbland, hbreak'⟩ := Trace.isBland_limited hlimit w
    rw [limited_eq_append hlimit, highest_append (ht.append (Trace.closed_of_isBland hbland)) hbreak,
      highest_append_of_isBland ht hbland hbreak']

theorem highest_page {w : Window} (ht : Quote.Closed t)
    (hkeys : ∀ key ∈ keys, Neutral .question key) (h : page d keys w t = .ok u) :
    highest style u = max (highest style t)
      (highest style
        (addedOrder d (Text.topLevel? Keyword.orderBy 0 (unlimited d t)).isSome keys)) := by
  obtain ⟨hclosed, hsame⟩ : Quote.Closed (unlimited d t) ∧
      highest style (unlimited d t) = highest style t := highest_unlimited ht
  obtain ⟨hpage, hlost⟩ := eq_of_page rfl h
  generalize unlimited d t = v at hclosed hsame hpage hlost ⊢
  generalize hhas : (Text.topLevel? Keyword.orderBy 0 v).isSome = hasOrder at hpage ⊢
  have hcut := Trace.cut_of_topLevel? (k := Keyword.forUpdate) (by decide) 0 hclosed rfl
  generalize (Text.topLevel? Keyword.forUpdate 0 v).getD v.length = lockAt at hpage hlost hcut
  have hboth : highest style t =
      max (highest style (v.take lockAt)) (highest style (v.drop lockAt)) := by
    rw [← highest_append hcut.1 hcut.2, List.take_append_drop, hsame]
  obtain ⟨htrim, htrimmed⟩ : Quote.Closed (Text.trimEnd (v.take lockAt)) ∧
      highest style (Text.trimEnd (v.take lockAt)) = highest style (v.take lockAt) :=
    highest_trimEnd hcut.1
  have horder := Trace.neutral_addedOrder d hasOrder hkeys
  have hnone := fun hlimit => hlost (Dialect.locksPages_of_rowNum hlimit)
  rw [hpage, highest_limited w (htrim.append horder.closed) hcut.2 hnone,
    highest_append htrim (Trace.breaks_addedOrder d hasOrder keys), htrimmed, hboth,
    ← Placeholder.max_assoc, ← Placeholder.max_assoc,
    Placeholder.max_comm (highest style (v.drop lockAt))]

end Statement

namespace Trace

open Placeholder (index)

/-- The index with which the placeholder of the given origin stands in the numbered statement. -/
def index? (style : PlaceholderStyle) (m : Trace) (origin : Origin) : Option UInt64 :=
  (m.placeholders.idxOf? (some origin)).map (index style m.text)

variable {style : PlaceholderStyle} {m : Trace} {origins : List Origin}

/-- A placeholder that stands at one place only has the index of that place. -/
theorem index?_eq (h : m.placeholders = origins.map some) (hnodup : origins.Nodup) {place : Nat}
    {origin : Origin} (ho : origins[place]? = some origin) :
    m.index? style origin = some (index style m.text place) := by
  obtain ⟨hlt, rfl⟩ := List.getElem?_eq_some_iff.mp ho
  have hfirst : m.placeholders.idxOf? (some origins[place]) = some place := by
    rw [h, List.idxOf?_eq_some_iff]
    refine ⟨by rwa [List.length_map], List.getElem_map some, fun j hj e => ?_⟩
    rw [List.getElem_map, Option.some_inj, hnodup.getElem_inj_iff] at e
    omega
  rw [index?, hfirst, Option.map_some]

end Trace

namespace Planner

open Trace (Carries)
open Placeholder (Neutral)

/-- Every text of the caller closes its quotes, and only the source and the filter have
placeholders. Any of them may have numbers of a style. -/
structure WellQuoted (r : Request) (f : Fragment) : Prop where
  filter_eq : r.filter.render = .ok f
  source_closed : Quote.Closed r.source
  filter_closed : Quote.Closed f.text
  table : ∀ t ∈ r.table, Neutral .question t
  order : ∀ key ∈ r.orderFragments, Neutral .question key

variable {p : Planner} {r : Request} {f : Fragment} {s : Statement} {traced : Trace}

/-- The statement carries the placeholders of the source and of the filter, with numbers in it or
without. -/
theorem WellQuoted.exists_traced (h : WellQuoted r f) (hs : p.statement r = .ok s) :
    ∃ traced, ∃ position ≤ Placeholder.count r.source,
      Trace.ofRequest p.dialect r (.of r.source) f.text = .ok traced ∧ traced.text = s.text ∧
      ((Profile.of r.source).hasSetOperation = true → position = Placeholder.count r.source) ∧
      ((f.text.isEmpty = true → f.values = []) →
        s.parameters =
          if (Profile.of r.source).hasSetOperation then r.parameters ++ f.values
          else Statement.splice r.parameters position f.values) ∧
      Carries .question traced
        (injected (Placeholder.count r.source) (Placeholder.count f.text) position) := by
  have hstatement : Statement.ofRequest p.dialect r (.of r.source) f = .ok s := by
    rw [← hs, statement, h.filter_eq]
  obtain ⟨traced, htraced, htext⟩ := ok_of_map_text
    ((Trace.text_ofRequest p.dialect r (.of r.source) f).trans
      (congrArg (Except.map Statement.text) hstatement))
  have hsource : Carries .question (Trace.label .source r.source) _ :=
    Trace.carries_label .source h.source_closed rfl
  have hfilter : Carries .question (Trace.label .filter f.text) _ :=
    Trace.carries_label .filter h.filter_closed rfl
  obtain ⟨position, hle, hset, -, hparameters, hcarries⟩ :=
    carries_ofRequest hsource hfilter h.table htraced hstatement
  rw [List.length_map, List.length_range] at hle hset
  exact ⟨traced, position, hle, htraced, htext, hset, hparameters, hcarries⟩

theorem exists_paged {pageText : Text} (htext : traced.text = s.text)
    (hpage : p.pageText r s = .ok pageText) :
    ∃ paged, Trace.page p.dialect r.orderFragments (p.window r) traced = .ok paged ∧
      paged.text = pageText :=
  ok_of_map_text
    ((Trace.text_page p.dialect r.orderFragments (p.window r) traced).trans
      ((congrArg (Statement.page p.dialect r.orderFragments (p.window r)) htext).trans hpage))

end Planner

end PagedQuery
