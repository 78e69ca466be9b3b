import PagedQuery.Proofs.Ranking
import PagedQuery.Proofs.Similarity.Plans
import PagedQuery.Proofs.Statement.Closure

/-!
# Plans with an order put in

The order keys of a request stand in its page statement, between two texts that do not
depend on them. When they bind nothing and have no number, both texts are numbered as
they are without an order. So an order by rank changes nothing but itself.
-/
namespace PagedQuery

namespace Placeholder

variable {style : PlaceholderStyle} {used : UInt64} {q : Quote} {t : Text}

theorem closed_numberFrom (ht : Quote.Closed t) :
    Quote.Closed (numberFrom style used .outside t) := by
  have h := after_numberFrom style used ⟨.outside, 0⟩ t
  have hquote := congrArg Place.quote h
  rwa [Place.after_quote, Place.after_quote, show Quote.after .outside t = .outside from ht]
    at hquote

end Placeholder

namespace Statement

open Placeholder (Neutral isBland)

variable {d : Dialect} {style : PlaceholderStyle} {t : Text}

theorem exists_limited_eq (limit : LimitSyntax) (w : Window) (locking : Text) :
    ∃ before behind, before.all isBland = true ∧
      ∀ t, limited limit w t locking = before ++ t ++ behind := by
  by_cases hlimit : limit = .rowNum
  · subst hlimit
    obtain ⟨before, behind, hbefore, -, -, heq⟩ := exists_rowNum_eq w
    exact ⟨before, behind, hbefore, fun t => heq t locking⟩
  · refine ⟨[], limited limit w [] [] ++ locking, rfl, fun t => ?_⟩
    rw [limited_eq_append hlimit, List.nil_append, List.append_assoc]

/-- The order keys do not matter to a page but where they stand in it. -/
theorem exists_page_eq (d : Dialect) (w : Window) (ht : Quote.Closed t) :
    (∃ e, ∀ keys, page d keys w t = .error e) ∨
      ∃ front locking, Quote.Closed front ∧ ∀ keys, page d keys w t =
        .ok (limited d.limitSyntax w (front ++ addedOrder d
          (Text.topLevel? Keyword.orderBy 0 (unlimited d t)).isSome keys) locking) := by
  obtain ⟨hclosed, -⟩ : Quote.Closed (unlimited d t) ∧
      Placeholder.highest .question (unlimited d t) = Placeholder.highest .question t :=
    highest_unlimited ht
  have hcut := Trace.cut_of_topLevel? (k := Keyword.forUpdate) (by decide) 0 hclosed rfl
  unfold page
  simp only
  split
  · exact .inl ⟨_, fun _ => rfl⟩
  · obtain ⟨htrimmed, -⟩ : Quote.Closed (Text.trimEnd _) ∧
        Placeholder.highest .question _ = Placeholder.highest .question _ := highest_trimEnd hcut.1
    exact .inr ⟨_, _, htrimmed, fun _ => rfl⟩

/-- Keys that bind nothing and have no number leave the numbering of the page around them as it
is without them. -/
theorem exists_restyle_page_eq (d : Dialect) (w : Window) (style : PlaceholderStyle)
    (ht : Quote.Closed t) :
    (∃ e, ∀ keys, page d keys w t = .error e) ∨
      ∃ before behind, Quote.Closed before ∧
        ∀ keys, (∀ key ∈ keys, ∀ style, Neutral style key) → ∃ pageText,
          page d keys w t = .ok pageText ∧ Placeholder.restyle style pageText =
            before ++ addedOrder d (Text.topLevel? Keyword.orderBy 0 (unlimited d t)).isSome keys ++
              behind := by
  rcases exists_page_eq d w ht with herror | ⟨front, locking, hfront, hpage⟩
  · exact .inl herror
  · right
    obtain ⟨used, hused⟩ : ∃ used, used = Placeholder.highest style t := ⟨_, rfl⟩
    obtain ⟨opening, closing, hopening, hlimited⟩ := exists_limited_eq d.limitSyntax w
      (Placeholder.numberFrom style (used + UInt64.ofNat (Placeholder.count front)) .outside locking)
    refine ⟨opening ++ Placeholder.numberFrom style used .outside front, closing,
      (Trace.closed_of_isBland hopening).append (Placeholder.closed_numberFrom hfront),
      fun keys hkeys => ⟨_, hpage keys, ?_⟩⟩
    obtain ⟨hasOrder, hhas⟩ : ∃ hasOrder,
      hasOrder = (Text.topLevel? Keyword.orderBy 0 (unlimited d t)).isSome := ⟨_, rfl⟩
    have hadded : Neutral style (addedOrder d hasOrder keys) :=
      Trace.neutral_addedOrder d hasOrder fun key hkey => hkeys key hkey style
    have hhighest : Placeholder.highest style _ = max (Placeholder.highest style t) _ :=
      highest_page ht (fun key hkey => hkeys key hkey .question) (hpage keys)
    rw [← hhas] at hhighest ⊢
    rw [hadded.unnumbered, Placeholder.max_comm, Placeholder.zero_max] at hhighest
    have hcount : Placeholder.count (front ++ addedOrder d hasOrder keys) =
        Placeholder.count front := by
      rw [Placeholder.count_append hfront, hadded.count_eq, Nat.add_zero]
    have hnumbered : Placeholder.numberFrom style used .outside (front ++ addedOrder d hasOrder keys) =
        Placeholder.numberFrom style used .outside front ++ addedOrder d hasOrder keys := by
      rw [Placeholder.numberFrom_append, show Quote.after .outside front = .outside from hfront,
        Placeholder.numberFrom_of_countFrom hadded.count_eq]
    rw [Placeholder.restyle_eq_numberFrom, hhighest, ← hused,
      Placeholder.numberFrom_limited style used w (hfront.append hadded.closed), hcount, hnumbered,
      hlimited]
    simp only [List.append_assoc]

end Statement

namespace Planner

open SortKeys (IsField caseText)

variable {p : Planner} {r : Request} {f : Fragment} {field : Text} {values : List Value}

/-- The source, the table and the filter of the request close their quotes and parentheses. -/
structure ClosedParts (r : Request) (f : Fragment) : Prop where
  filter_eq : r.filter.render = .ok f
  source : Place.Closed r.source
  table : ∀ table ∈ r.table, Place.Closed table
  filter : Place.Closed f.text

/-- The second plan differs from the first one in the order that is put in between two texts. -/
structure Reordered (p : Planner) (r ordered : Request) (a b : Plan) : Prop where
  countStatement_eq : b.countStatement = a.countStatement
  parameters_eq : b.parameters = a.parameters
  window_eq : b.window = a.window
  pageStatement_eq : ∃ s before behind, p.statement r = .ok s ∧ Quote.Closed before ∧
    a.pageStatement = before ++ p.orderPutIn r s ++ behind ∧
    b.pageStatement = before ++ p.orderPutIn ordered s ++ behind
  count_eq : Placeholder.count b.pageStatement = Placeholder.count a.pageStatement

theorem ClosedParts.closed (h : ClosedParts r f) {s : Statement} (hs : p.statement r = .ok s) :
    Quote.Closed s.text := by
  unfold statement at hs
  rw [h.filter_eq] at hs
  exact (Statement.ofRequest_closed (Statement.bareSource_closed h.source) h.table h.filter hs).quote

/-- An order of keys that bind nothing and have no number changes nothing but itself. -/
theorem agree_of_neutral (h : ClosedParts r f) {order : List Text}
    (hbefore : ∀ key ∈ r.orderFragments, ∀ style, Placeholder.Neutral style key)
    (hafter : ∀ key ∈ ({ r with order } : Request).orderFragments, ∀ style,
      Placeholder.Neutral style key) :
    Agree (· = ·) (Reordered p r { r with order }) (p.plan r) (p.plan { r with order }) := by
  have hstatement : p.statement { r with order } = p.statement r := rfl
  unfold plan
  rw [hstatement]
  cases hs : p.statement r with
  | error e => exact .error rfl
  | ok s =>
    dsimp only
    have hpage : p.pageText { r with order } s = Statement.page p.dialect
      ({ r with order } : Request).orderFragments (p.window r) s.text := rfl
    have hself : p.pageText r s = Statement.page p.dialect r.orderFragments (p.window r) s.text := rfl
    rw [hpage, hself]
    rcases Statement.exists_restyle_page_eq p.dialect (p.window r) p.dialect.placeholderStyle
      (h.closed hs) with ⟨e, herror⟩ | ⟨before, behind, hclosed, hok⟩
    · rw [herror, herror]
      exact .error rfl
    · obtain ⟨without, hwithout, hplain⟩ := hok _ hbefore
      obtain ⟨ordered, hordered, horder⟩ := hok _ hafter
      rw [hwithout, hordered]
      refine .ok ⟨rfl, rfl, rfl, ⟨s, before, behind, hs, hclosed, hplain, horder⟩, ?_⟩
      have hcount : ∀ keys, (∀ key ∈ keys, ∀ style, Placeholder.Neutral style key) →
          Placeholder.count (before ++ Statement.addedOrder p.dialect (Text.topLevel?
            Keyword.orderBy 0 (Statement.unlimited p.dialect s.text)).isSome keys ++ behind) =
              Placeholder.count before + Placeholder.count behind := by
        intro keys hkeys
        have hadded := Trace.neutral_addedOrder p.dialect (Text.topLevel? Keyword.orderBy 0
          (Statement.unlimited p.dialect s.text)).isSome fun key hkey => hkeys key hkey .question
        rw [Placeholder.count_append (hclosed.append hadded.closed),
          Placeholder.count_append hclosed, hadded.count_eq, Nat.add_zero]
      show Placeholder.count (Placeholder.restyle _ ordered) =
        Placeholder.count (Placeholder.restyle _ without)
      rw [hplain, horder, hcount _ hbefore, hcount _ hafter]

/-- The sort keys that rank the values of a field. -/
def ranking (field : Text) (values : List Value) : SortKeys := ({} : SortKeys).set (.ranked field values)

theorem text_ranking (hfield : IsField field) (hvalues : values ≠ []) :
    (ranking field values).text = caseText field values := by
  have hne : ∃ c rest, caseText field values = c :: rest := ⟨'C', _, rfl⟩
  obtain ⟨c, rest, heq⟩ := hne
  rw [ranking, SortKeys.set, SortKeys.render_ranked hfield hvalues, heq]

/-- Every literal is sealed and holds its text. Values rank a field by a closed case expression
without clause keywords, and a request that is ordered by it alone has the plan that it has without
an order, or its error, with the same count and values; only the page has the order put in, and
its placeholders and their numbers stay. -/
theorem plan_ranked (hfield : IsField field) (hvalues : values ≠ []) (hparts : ClosedParts r f)
    (horder : r.order = []) (p : Planner) :
    (∀ v, Literal.Sealed (Literal.render v)) ∧
      (∀ t, Literal.unquote (Literal.render (.text t)) = t) ∧
      (∀ items, Literal.unquote (Literal.render (.array items)) = (Value.array items).compact) ∧
      (∀ fields, Literal.unquote (Literal.render (.object fields)) =
        (Value.object fields).compact) ∧
      Function.Injective (fun t => Literal.render (.text t)) ∧
      (ranking field values).text = caseText field values ∧
      Text.Inert (ranking field values).text ∧
      (∀ style, Placeholder.Neutral style (ranking field values).text) ∧
      Agree (· = ·) (Reordered p r (r.sortBy (ranking field values))) (p.plan r)
        (p.plan (r.sortBy (ranking field values))) := by
  have htext := text_ranking hfield hvalues
  have hsort : r.sortBy (ranking field values) = { r with order := [caseText field values] } := by
    have hne : (ranking field values).isEmpty = false := by
      rw [SortKeys.isEmpty, htext]
      rfl
    rw [Request.sortBy, hne, htext, Request.orderBy, horder]
    rfl
  have hneutral := hfield.neutral_caseText values
  rw [hsort, htext]
  refine ⟨Literal.sealed_render, Literal.unquote_quote, fun _ => Literal.unquote_quote _,
    fun _ => Literal.unquote_quote _, Literal.quote_injective, rfl, hfield.inert hvalues, hneutral,
    agree_of_neutral hparts ?_ ?_⟩
  · rw [Request.orderFragments, horder]
    exact fun key hkey => absurd hkey List.not_mem_nil
  · intro key hkey
    rw [Request.orderFragments, List.map_singleton, SortKeys.orderKeys_caseText] at hkey
    rw [List.mem_singleton.mp (List.mem_of_mem_filter hkey)]
    exact hneutral

/-- Values with a quote, a placeholder and a keyword in them. -/
def stateNames : List Value := [.text "it's ?".toList, .null, .array [.text "') ORDER BY $1".toList]]

example : caseText "state".toList stateNames = ("CASE state WHEN 'it''s ?' THEN 0 WHEN NULL THEN 1 " ++
    "WHEN '[\"'') ORDER BY $1\"]' THEN 2 END").toList := by decide

def openJobs : Request :=
  { source := "SELECT * FROM jobs WHERE size > ? FOR UPDATE".toList
    parameters := [.null]
    filter := .raw "owner = ?".toList [.bool true] }

theorem plan_ranked_openJobs :
    IsField "state".toList ∧ stateNames ≠ [] ∧ ClosedParts openJobs ⟨"owner = ?".toList, [.bool true]⟩ ∧
      openJobs.order = [] ∧
      Agree (· = ·)
        (Reordered { dialect := .postgres } openJobs
          (openJobs.sortBy (ranking "state".toList stateNames)))
        (({ dialect := .postgres } : Planner).plan openJobs)
        (({ dialect := .postgres } : Planner).plan
          (openJobs.sortBy (ranking "state".toList stateNames))) := by
  have hletters : "state".toList.all (!Text.isBlank ·) = true := by decide
  have hfield : IsField "state".toList :=
    { ne_nil := by decide
      nonblank := fun c hc => by simpa using List.all_eq_true.mp hletters c hc
      closed := by decide
      unbound := by decide
      unnumbered := fun style => by cases style <;> decide
      not_keyword := by decide }
  have hvalues : stateNames ≠ [] := List.cons_ne_nil _ _
  have hparts : ClosedParts openJobs ⟨"owner = ?".toList, [.bool true]⟩ :=
    { filter_eq := rfl
      source := by decide +kernel
      table := by decide
      filter := by decide }
  obtain ⟨-, -, -, -, -, -, -, -, hplans⟩ :=
    plan_ranked hfield hvalues hparts rfl { dialect := .postgres }
  exact ⟨hfield, hvalues, hparts, rfl, hplans⟩

end Planner

end PagedQuery
