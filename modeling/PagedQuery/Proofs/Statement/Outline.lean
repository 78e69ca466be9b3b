import PagedQuery.Proofs.Lexical.Seam
import PagedQuery.Proofs.Text.Trim
import PagedQuery.Statement.Basic

/-!
# Statements by their clause bodies

An outline is a select list, the body of `FROM`, the body of `WHERE` if there is
one, and the tail that follows them. When the bodies are closed and hold no
keyword at which the statement could be cut too early, the clauses of its text
are found where the outline puts them, and a filter changes the outline clause
by clause.
-/
namespace PagedQuery

open Text (Free Occurs LeadsOff)

structure Outline where
  selectList : Text
  source : Text
  condition : Option Text
  tail : Text
  deriving DecidableEq, Repr

namespace Outline

/-- The text in front of `FROM`. -/
def selection (o : Outline) : Text := Keyword.select ++ o.selectList

/-- The text in front of `WHERE`. -/
def front (o : Outline) : Text := o.selection ++ Keyword.fromClause ++ o.source

/-- The text in front of the tail. -/
def body (o : Outline) : Text :=
  match o.condition with
  | none => o.front
  | some condition => o.front ++ Keyword.whereClause ++ condition

def text (o : Outline) : Text := o.body ++ o.tail

/-- The bodies are closed and hide no keyword at which the statement is cut; the tail begins with
one that may follow a condition. -/
structure WellFormed (o : Outline) : Prop where
  selectList_closed : Place.Closed o.selectList
  source_closed : Place.Closed o.source
  condition_closed : ∀ w ∈ o.condition, Place.Closed w
  selectList_free : Free Keyword.fromClause o.selectList
  source_free_where : Free Keyword.whereClause o.source
  source_free : ∀ k ∈ Keyword.trailing, Free k o.source
  condition_free : ∀ w ∈ o.condition, ∀ k ∈ Keyword.trailing, Free k w
  tail_head : o.tail = [] ∨ ∃ k ∈ Keyword.trailing, k <+: Text.fold o.tail
  tail_where : Text.topLevel? Keyword.whereClause 0 o.tail = none

/-- The term that a fragment adds to a condition. -/
def term (fragment : Text) : Text := " AND ".toList ++ Predicate.parenthesized fragment

/-- The text of the outline with the fragment conjoined to its condition. -/
def restricted (o : Outline) (fragment : Text) : Text :=
  match o.condition with
  | none =>
    if fragment ≠ [] then
      Text.trimEnd o.front ++ Statement.neutralWhere ++ term fragment ++ o.tail
    else if o.tail ≠ [] then Text.trimEnd o.front ++ Statement.neutralWhere ++ o.tail
    else o.text
  | some condition =>
    if fragment = [] then o.text
    else if (Text.topLevel? Keyword.or 0 (Text.trim condition)).isSome then
      o.front ++ Keyword.whereClause ++ Predicate.parenthesized (Text.trim condition) ++
        term fragment ++ o.tail
    else Text.trimEnd o.body ++ term fragment ++ o.tail

theorem not_occurs_term {k fragment rest : Text} (hk : k ∈ Keyword.cuts)
    (hf : Place.Closed fragment) {i : Nat} (hi : i < (term fragment).length) :
    ¬Occurs k (term fragment ++ rest) i := by
  intro ho
  have hsplit : term fragment ++ rest =
      " AND ".toList ++ (Predicate.parenthesized fragment ++ rest) := by
    rw [term, List.append_assoc]
  rw [term, List.length_append] at hi
  rcases Nat.lt_or_ge i 5 with hlt | hge
  · have hno : ∀ k ∈ Keyword.cuts, ∀ i < 5, " AND (".toList[i]? = some ' ' →
        " AND (".toList[i + 1]? ≠ k[1]? := by decide
    have hopen : Text.fold (term fragment ++ rest) =
        " AND (".toList ++ Text.fold (fragment ++ [')'] ++ rest) := rfl
    have hspace := ho.getElem? hk
    have hlong := Keyword.one_lt_length k hk
    have hletter := ho.getElem?_fold hlong
    rw [hopen, List.getElem?_append_left (by simp; omega)] at hspace hletter
    exact hno k hk i hlt hspace hletter
  · obtain ⟨j, rfl⟩ := Nat.exists_eq_add_of_le hge
    rw [hsplit] at ho
    have hj := (Text.occurs_append_right (s := " AND ".toList) (by decide)).mp ho
    exact Text.not_occurs_parenthesized hk hf (by simp at hi; omega) hj

theorem leadsOff_term (fragment rest : Text) :
    LeadsOff (term fragment ++ rest) := by
  constructor
  · intro c hc
    have hspace : some ' ' = some c := hc
    exact (Option.some.inj hspace).symm
  · intro c hc
    have hletter : some 'A' = some c := hc
    rw [← Option.some.inj hletter]
    decide

theorem closed_term (hf : Place.Closed fragment) : Place.Closed (term fragment) :=
  (Place.closed_of_isPlain (by decide)).append hf.parenthesized

variable {o : Outline}

theorem WellFormed.leadsOff_tail (h : o.WellFormed) : LeadsOff o.tail :=
  Text.leadsOff_of_clauses (fun _ => Keyword.mem_cuts_of_mem_trailing) h.tail_head

theorem WellFormed.selection_closed (h : o.WellFormed) : Place.Closed o.selection :=
  (Keyword.closed_of_mem_heads (by decide)).append h.selectList_closed

theorem WellFormed.front_closed (h : o.WellFormed) : Place.Closed o.front :=
  (h.selection_closed.append (Keyword.closed_of_mem_heads (by decide))).append h.source_closed

theorem text_eq_selection (o : Outline) : ∃ rest, o.text = o.selection ++ (Keyword.fromClause ++
    (o.source ++ rest)) ∧ (o.condition = none → rest = o.tail) ∧
      ∀ w ∈ o.condition, rest = Keyword.whereClause ++ (w ++ o.tail) := by
  cases hc : o.condition with
  | none =>
    refine ⟨o.tail, ?_, fun _ => rfl, fun w hw => absurd hw (by simp)⟩
    simp only [text, body, front, hc, List.append_assoc]
  | some w =>
    refine ⟨Keyword.whereClause ++ (w ++ o.tail), ?_, fun h => absurd h (by simp), ?_⟩
    · simp only [text, body, front, hc, List.append_assoc]
    · rintro _ ⟨⟩
      rfl

theorem WellFormed.leadsOff_rest (h : o.WellFormed) {rest : Text}
    (hnone : o.condition = none → rest = o.tail)
    (hsome : ∀ w ∈ o.condition, rest = Keyword.whereClause ++ (w ++ o.tail)) : LeadsOff rest := by
  cases hc : o.condition with
  | none =>
    rw [hnone hc]
    exact h.leadsOff_tail
  | some w =>
    rw [hsome w (by simp [hc])]
    exact Text.leadsOff_keyword (by decide) _

/-- The first `FROM` at the top level is the one behind the select list. -/
theorem WellFormed.from_at (h : o.WellFormed) :
    Text.topLevel? Keyword.fromClause 0 o.text = some o.selection.length := by
  obtain ⟨rest, htext, -, -⟩ := o.text_eq_selection
  rw [htext]
  refine Text.topLevel?_append (by decide) h.selection_closed.1 (Nat.zero_le _) ?_ ?_
  · rw [Text.fold_append]
    exact List.prefix_append _ _
  · intro i _ hi
    unfold selection at hi ⊢
    rw [List.append_assoc]
    exact Text.not_occurs_clause (by decide) (by decide) h.selectList_free
      (Text.leadsOff_keyword (by decide) _) (by rwa [← List.length_append]) (Or.inr (by decide))

theorem WellFormed.not_occurs_source (h : o.WellFormed) {k rest : Text} (hk : k ∈ Keyword.cuts)
    (hfree : Free k o.source) (hne : k ≠ Keyword.fromClause) (hrest : LeadsOff rest) {i : Nat}
    (hle : o.selection.length ≤ i) (hlt : i < o.front.length) :
    ¬Occurs k (o.selection ++ (Keyword.fromClause ++ (o.source ++ rest))) i := by
  obtain ⟨j, rfl⟩ := Nat.exists_eq_add_of_le hle
  rw [Text.occurs_append_right h.selection_closed.1]
  refine Text.not_occurs_clause hk (by decide) hfree hrest ?_ (Or.inr hne)
  simp only [front, List.length_append] at hlt ⊢
  omega

/-- The `WHERE` that is found is the one of the outline. -/
theorem WellFormed.where_at (h : o.WellFormed) :
    Text.topLevel? Keyword.whereClause o.selection.length o.text =
      o.condition.map fun _ => o.front.length := by
  obtain ⟨rest, htext, hnone, hsome⟩ := o.text_eq_selection
  have hrest := h.leadsOff_rest hnone hsome
  have hno := fun i => h.not_occurs_source (i := i) (by decide : Keyword.whereClause ∈ Keyword.cuts)
    h.source_free_where (by decide) hrest
  have hfront : o.selection ++ (Keyword.fromClause ++ (o.source ++ rest)) = o.front ++ rest := by
    simp only [front, List.append_assoc]
  rw [hfront] at hno htext
  rw [htext]
  cases hc : o.condition with
  | none =>
    rw [Option.map_none, Text.topLevel?_eq_none_iff]
    intro i hi
    rcases Nat.lt_or_ge i o.front.length with hlt | hge
    · exact hno i hi hlt
    · obtain ⟨j, rfl⟩ := Nat.exists_eq_add_of_le hge
      rw [Text.occurs_append_right h.front_closed.1, hnone hc]
      exact Text.topLevel?_eq_none_iff.mp h.tail_where j (Nat.zero_le j)
  | some w =>
    rw [Option.map_some]
    refine Text.topLevel?_append (by decide) h.front_closed.1 ?_ ?_ hno
    · simp only [front, List.length_append]
      omega
    · rw [hsome w (by simp [hc]), Text.fold_append]
      exact List.prefix_append _ _

theorem firstTopLevel?_clause {keywords : List Text} {s k' b t : Text}
    (hkeywords : ∀ k ∈ keywords, k ∈ Keyword.cuts) (hs : Place.Closed s)
    (hk' : k' ∈ Keyword.heads) (hb : Place.Closed b) (hfree : ∀ k ∈ keywords, Free k b)
    (ht : t = [] ∨ ∃ k ∈ keywords, k <+: Text.fold t) :
    (Text.firstTopLevel? keywords (s ++ k').length (s ++ k' ++ b ++ t)).getD
      (s ++ k' ++ b ++ t).length = (s ++ k' ++ b).length := by
  have hclosed : Place.Closed (s ++ k' ++ b) :=
    (hs.append (Keyword.closed_of_mem_heads hk')).append hb
  have hlead : LeadsOff t := Text.leadsOff_of_clauses hkeywords ht
  have hno : ∀ k ∈ keywords, ∀ i, (s ++ k').length ≤ i → i < (s ++ k' ++ b).length →
      ¬Occurs k (s ++ k' ++ b ++ t) i := by
    intro k hk i hle hlt
    have hpos : 0 < k'.length := (by decide : ∀ k' ∈ Keyword.heads, 0 < k'.length) k' hk'
    simp only [List.length_append] at hle hlt
    obtain ⟨j, rfl⟩ := Nat.exists_eq_add_of_le (show s.length ≤ i by omega)
    rw [List.append_assoc, List.append_assoc, Text.occurs_append_right hs.1]
    exact Text.not_occurs_clause (hkeywords k hk) hk' (hfree k hk) hlead (by omega)
      (Or.inl (by omega))
  refine Text.firstTopLevel?_append hkeywords hclosed.1 ?_ hno ht
  simp only [List.length_append]
  omega

theorem WellFormed.clauses (h : o.WellFormed) :
    Clauses.of? o.text = some
      { fromAt := o.selection.length
        whereAt := o.condition.map fun _ => o.front.length
        bodyAt := match o.condition with
          | none => (o.selection ++ Keyword.fromClause).length
          | some _ => (o.front ++ Keyword.whereClause).length
        tailAt := o.body.length } := by
  have htrailing : ∀ k ∈ Keyword.trailing, k ∈ Keyword.cuts :=
    fun k hk => Keyword.mem_cuts_of_mem_trailing hk
  simp only [Clauses.of?, h.from_at, h.where_at]
  cases hc : o.condition with
  | none =>
    have htail := firstTopLevel?_clause htrailing h.selection_closed
      (by decide : Keyword.fromClause ∈ Keyword.heads) h.source_closed h.source_free h.tail_head
    simp only [List.length_append] at htail
    simp only [Option.map_none, text, body, front, hc, List.length_append, htail]
  | some w =>
    have htail := firstTopLevel?_clause htrailing h.front_closed
      (by decide : Keyword.whereClause ∈ Keyword.heads) (h.condition_closed w hc)
      (h.condition_free w hc) h.tail_head
    simp only [List.length_append] at htail
    simp only [Option.map_some, text, body, hc, List.length_append, htail]

/-- A fragment is conjoined to the condition of the outline. -/
theorem WellFormed.restrict_text (h : o.WellFormed) {clauses : Clauses}
    (hclauses : Clauses.of? o.text = some clauses) (parameters : List Value) (f : Fragment) :
    (Statement.restrict o.text clauses parameters f).text = o.restricted f.text := by
  rw [h.clauses, Option.some.injEq] at hclauses
  subst hclauses
  have htake : o.text.take o.body.length = o.body := List.take_left
  have hdrop : o.text.drop o.body.length = o.tail := List.drop_left
  unfold Statement.restrict Statement.withCondition Statement.head restricted
  simp only [htake, hdrop, List.isEmpty_iff]
  cases hc : o.condition with
  | none =>
    have hbody : o.body = o.front := by simp only [body, hc]
    by_cases hf : f.text = []
    · by_cases ht : o.tail = []
      · simp [hf, ht, text, hbody]
      · have : 0 < o.tail.length := List.length_pos_iff.mpr ht
        simp [hf, ht, text, hbody, this]
    · simp [hf, hbody, term]
  | some w =>
    have hbody : o.body = o.front ++ Keyword.whereClause ++ w := by simp only [body, hc]
    have hfront : o.text.take o.front.length = o.front := by
      rw [text, hbody, List.append_assoc, List.append_assoc]
      exact List.take_left
    have hcond : o.body.drop (o.front ++ Keyword.whereClause).length = w := by
      rw [hbody]
      exact List.drop_left
    by_cases hf : f.text = []
    · simp [hf]
    · simp only [hf, hfront, hcond, Option.map_some, if_false, term, List.append_assoc]
      split <;> simp only [List.append_assoc]

end Outline

end PagedQuery
