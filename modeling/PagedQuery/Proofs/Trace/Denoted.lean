import PagedQuery.Proofs.Trace.Numbered

/-!
# Values behind numbers

A source may hold numbers of its own, which stand for its first values, besides
placeholders. A filter puts its values in by the placeholders in front of them
alone, but its placeholders are numbered after all numbers. So its values may
come in front of values that numbers of the source stand for, and away from where
its own indices look for them.
-/
namespace PagedQuery

section Insertion

variable {α : Type} {values more : List α} {i j : Nat}

theorem getElem?_insertion_below (hi : i ≤ values.length) (hj : j < i) :
    (values.take i ++ more ++ values.drop i)[j]? = values[j]? := by
  have hlen : (values.take i).length = i := List.length_take_of_le hi
  rw [List.append_assoc, List.getElem?_append_left (by omega), List.getElem?_take_of_lt hj]

theorem getElem?_insertion (hi : i ≤ values.length) (hj : j < more.length) :
    (values.take i ++ more ++ values.drop i)[i + j]? = more[j]? := by
  have hlen : (values.take i).length = i := List.length_take_of_le hi
  rw [List.append_assoc, List.getElem?_append_right (by omega), hlen, Nat.add_sub_cancel_left,
    List.getElem?_append_left hj]

theorem nodup_insertion (h : (values ++ more).Nodup) :
    (values.take i ++ more ++ values.drop i).Nodup := by
  have hperm : (values.take i ++ more ++ values.drop i).Perm (values ++ more) := by
    rw [List.append_assoc]
    refine (List.perm_append_comm.append_left (values.take i)).trans ?_
    rw [← List.append_assoc, List.take_append_drop]
  exact hperm.nodup_iff.mpr h

end Insertion

namespace Planner

open Trace (Carries)
open Placeholder (index)

/-- The page of the statement, as a trace of the placeholders of source and filter. -/
structure Placed (p : Planner) (r : Request) (f : Fragment) (plan : Plan) (traced paged : Trace)
    (position : Nat) : Prop where
  traced_eq : Trace.ofRequest p.dialect r (.of r.source) f.text = .ok traced
  paged_eq : Trace.page p.dialect r.orderFragments (p.window r) traced = .ok paged
  pageStatement_eq : plan.pageStatement =
    Placeholder.fill (Placeholder.tokens p.dialect.placeholderStyle paged.text) paged.text
  placeholders : paged.placeholders =
    (injected (Placeholder.count r.source) (Placeholder.count f.text) position).map some
  position_le : position ≤ Placeholder.count r.source

/-- The first `k` values are those of the request. -/
def KeepsFirst (r : Request) (plan : Plan) (k : Nat) : Prop :=
  ∀ j < k, plan.parameters[j]? = r.parameters[j]?

/-- The indices of the placeholders of the filter stand for their own values. -/
def DenotesFilter (p : Planner) (f : Fragment) (plan : Plan) (paged : Trace) : Prop :=
  ∀ i < f.values.length, ∃ n, paged.index? p.dialect.placeholderStyle (.filter i) = some n ∧
    n ≠ 0 ∧ plan.parameters[n.toNat - 1]? = f.values[i]?

variable {p : Planner} {r : Request} {f : Fragment} {plan : Plan} {traced paged : Trace}
  {position : Nat}

theorem nodup_sources_append_filters (sources filters : Nat) :
    ((List.range sources).map Origin.source ++ (List.range filters).map Origin.filter).Nodup := by
  refine List.Nodup.append (List.nodup_range.map fun _ _ => Origin.source.inj)
    (List.nodup_range.map fun _ _ => Origin.filter.inj) ?_
  intro o hsource hfilter
  obtain ⟨i, -, rfl⟩ := List.mem_map.mp hsource
  obtain ⟨j, -, hj⟩ := List.mem_map.mp hfilter
  exact Origin.noConfusion hj

theorem Placed.index?_filter (h : p.Placed r f plan traced paged position) {i : Nat}
    (hi : i < Placeholder.count f.text) :
    paged.index? p.dialect.placeholderStyle (.filter i) =
      some (index p.dialect.placeholderStyle paged.text (position + i)) := by
  apply Trace.index?_eq h.placeholders
  · exact nodup_insertion (nodup_sources_append_filters _ _)
  · have hle : position ≤
        ((List.range (Placeholder.count r.source)).map Origin.source).length := by
      rw [List.length_map, List.length_range]
      exact h.position_le
    rw [injected, getElem?_insertion hle (by rwa [List.length_map, List.length_range]),
      List.getElem?_map, List.getElem?_range hi, Option.map_some]

theorem exists_placed (hstyle : p.dialect.placeholderStyle ≠ .question) (h : WellQuoted r f)
    (hvalues : Placeholder.count f.text = f.values.length) (hplan : p.plan r = .ok plan) :
    ∃ traced paged position, p.Placed r f plan traced paged position ∧
      ((Profile.of r.source).hasSetOperation = true → position = Placeholder.count r.source) ∧
      plan.parameters =
        if (Profile.of r.source).hasSetOperation then r.parameters ++ f.values
        else Statement.splice r.parameters position f.values := by
  obtain ⟨s, pageText, hs, hpage, rfl⟩ := eq_of_plan hplan
  obtain ⟨traced, position, hle, htraced, htext, hset, hparameters, hcarries⟩ :=
    h.exists_traced hs
  obtain ⟨paged, hpaged, rfl⟩ := exists_paged htext hpage
  have hnone : f.text.isEmpty = true → f.values = [] := by
    intro hempty
    rw [List.isEmpty_iff.mp hempty] at hvalues
    exact List.length_eq_zero_iff.mp hvalues.symm
  refine ⟨traced, paged, position, ?_, hset, hparameters hnone⟩
  exact
    { traced_eq := htraced
      paged_eq := hpaged
      pageStatement_eq := Placeholder.restyle_eq_fill hstyle paged.text
      placeholders := (Trace.carries_page hcarries h.order hpaged).placeholders
      position_le := hle }

/-- Values that are put in at a position keep the first `k` values when it is not among them. -/
theorem keepsFirst_splice {k place : Nat} (hat : place ≤ r.parameters.length)
    (hk : k ≤ r.parameters.length)
    (hparameters : plan.parameters = Statement.splice r.parameters place f.values) :
    (f.values = [] ∨ k ≤ place → KeepsFirst r plan k) ∧
      ((r.parameters ++ f.values).Nodup → KeepsFirst r plan k → f.values = [] ∨ k ≤ place) := by
  constructor
  · rintro (hnone | hle) j hj
    · rw [hparameters, hnone, Statement.splice, List.append_nil, List.take_append_drop]
    · rw [hparameters, Statement.splice, getElem?_insertion_below hat (by omega)]
  · intro hnodup hkeeps
    by_contra hmoved
    obtain ⟨hsome, hlt⟩ := not_or.mp hmoved
    have hpos : 0 < f.values.length := List.length_pos_iff.mpr hsome
    have hat' : place < r.parameters.length := by omega
    have hsame := hkeeps place (by omega)
    have hfirst := getElem?_insertion hat hpos
    rw [Nat.add_zero] at hfirst
    rw [hparameters, Statement.splice, hfirst, List.getElem?_eq_getElem hpos,
      List.getElem?_eq_getElem hat', Option.some_inj] at hsame
    exact (List.nodup_append.mp hnodup).2.2 _ (List.getElem_mem hat') _ (List.getElem_mem hpos)
      hsame.symm

/-- Below the word size, a number that leads to the same index is the same. -/
theorem eq_of_wrapped {number place shift : Nat} (hnumber : number < UInt64.size)
    (hshift : shift < UInt64.size)
    (h : (number + 1 + (place + 0)) % UInt64.size = place + shift + 1) : number = shift := by
  simp only [UInt64.size] at *
  omega

/-- The number of a placeholder of the filter, up to the word size. -/
theorem Placed.exists_index (h : p.Placed r f plan traced paged position)
    (hvalues : Placeholder.count f.text = f.values.length) {i : Nat} (hi : i < f.values.length) :
    ∃ n, paged.index? p.dialect.placeholderStyle (.filter i) = some n ∧
      n.toNat = ((Placeholder.highest p.dialect.placeholderStyle paged.text).toNat + 1 +
        (position + i)) % UInt64.size := by
  refine ⟨_, h.index?_filter (hvalues ▸ hi), ?_⟩
  rw [index, UInt64.toNat_add, UInt64.toNat_add, UInt64.toNat_ofNat']
  simp

/-- The placeholders of the filter find their values when the highest number is as many as the values
that were put in front of the filter besides those of placeholders. -/
theorem Placed.denotesFilter_of_highest (h : p.Placed r f plan traced paged position)
    (hvalues : Placeholder.count f.text = f.values.length) {shift : Nat}
    (hat : position + shift ≤ r.parameters.length)
    (hfits : r.parameters.length + f.values.length < UInt64.size)
    (hparameters : plan.parameters = Statement.splice r.parameters (position + shift) f.values)
    (hhighest : f.values = [] ∨
      (Placeholder.highest p.dialect.placeholderStyle paged.text).toNat = shift) :
    p.DenotesFilter f plan paged := by
  intro i hi
  obtain ⟨n, hindex, hn⟩ := h.exists_index hvalues hi
  have hsame := hhighest.resolve_left (List.length_pos_iff.mp (Nat.zero_lt_of_lt hi))
  rw [hsame, Nat.mod_eq_of_lt (by omega)] at hn
  have hplace : n.toNat - 1 = position + shift + i := by omega
  refine ⟨n, hindex, ?_, ?_⟩
  · rintro rfl
    rw [UInt64.toNat_zero] at hn
    omega
  · rw [hplace, hparameters, Statement.splice, getElem?_insertion hat hi]

/-- Where no value comes twice, they find them in no other case. -/
theorem Placed.highest_of_denotesFilter (h : p.Placed r f plan traced paged position)
    (hvalues : Placeholder.count f.text = f.values.length) {shift : Nat}
    (hat : position + shift ≤ r.parameters.length) (hshift : shift < UInt64.size)
    (hparameters : plan.parameters = Statement.splice r.parameters (position + shift) f.values)
    (hnodup : (r.parameters ++ f.values).Nodup) (hdenotes : p.DenotesFilter f plan paged) :
    f.values = [] ∨ (Placeholder.highest p.dialect.placeholderStyle paged.text).toNat = shift := by
  rcases Nat.eq_zero_or_pos f.values.length with hnone | hpos
  · exact Or.inl (List.length_eq_zero_iff.mp hnone)
  right
  obtain ⟨n, hindex, hn⟩ := h.exists_index hvalues hpos
  obtain ⟨m, hm, hne, hvalue⟩ := hdenotes 0 hpos
  obtain rfl := Option.some.inj (hindex.symm.trans hm)
  have hnodup' : plan.parameters.Nodup := by
    rw [hparameters]
    exact nodup_insertion hnodup
  have hlt : position + shift < plan.parameters.length := by
    rw [hparameters, Statement.splice, List.length_append, List.length_append,
      List.length_take_of_le hat]
    omega
  have hfirst : plan.parameters[position + shift]? = f.values[0]? := by
    rw [hparameters]
    exact getElem?_insertion hat hpos
  have hplace := (List.getElem?_inj hlt hnodup').mp (hfirst.trans hvalue.symm)
  have hpositive : 0 < n.toNat := Nat.pos_of_ne_zero fun hzero => hne (UInt64.toNat_inj.mp hzero)
  apply eq_of_wrapped (UInt64.toNat_lt _) hshift
  rw [← hn]
  omega

/-- The first `k` values, which the numbers of the source stand for, stay in their places when the
filter is put in behind them or behind a set operation. The placeholders of the filter find their values
when the page has no number that they follow but the first `k` of a set operation. Where no value comes
twice, both hold in no other case than that the filter has no value. -/
theorem denoted_iff (hstyle : p.dialect.placeholderStyle ≠ .question) (h : WellQuoted r f)
    (hvalues : Placeholder.count f.text = f.values.length) {k : Nat}
    (hk : (Placeholder.highest p.dialect.placeholderStyle r.source).toNat = k)
    (hparameters : r.parameters.length = k + Placeholder.count r.source)
    (hfits : r.parameters.length + f.values.length < UInt64.size) (hplan : p.plan r = .ok plan) :
    ∃ traced paged position, p.Placed r f plan traced paged position ∧
      (f.values = [] ∨ (Profile.of r.source).hasSetOperation = true ∨ k ≤ position →
        KeepsFirst r plan k) ∧
      (f.values = [] ∨ (Placeholder.highest p.dialect.placeholderStyle paged.text).toNat =
          (if (Profile.of r.source).hasSetOperation then k else 0) →
        p.DenotesFilter f plan paged) ∧
      ((r.parameters ++ f.values).Nodup →
        (KeepsFirst r plan k →
          f.values = [] ∨ (Profile.of r.source).hasSetOperation = true ∨ k ≤ position) ∧
        (p.DenotesFilter f plan paged →
          f.values = [] ∨ (Placeholder.highest p.dialect.placeholderStyle paged.text).toNat =
            (if (Profile.of r.source).hasSetOperation then k else 0))) := by
  obtain ⟨traced, paged, position, hplaced, hset, hspliced⟩ :=
    exists_placed hstyle h hvalues hplan
  have hle := hplaced.position_le
  refine ⟨traced, paged, position, hplaced, ?_⟩
  cases hoperation : (Profile.of r.source).hasSetOperation with
  | true =>
    have hlast := hset hoperation
    rw [hoperation, if_pos rfl] at hspliced
    have hall : plan.parameters = Statement.splice r.parameters (position + k) f.values := by
      rw [hspliced, Statement.splice, List.take_of_length_le (by omega),
        List.drop_of_length_le (by omega), List.append_nil]
    have hkeeps := keepsFirst_splice (k := k) (by omega) (by omega) hall
    have hat : position + k ≤ r.parameters.length := by omega
    have hshift : k < UInt64.size := by omega
    exact ⟨fun _ => hkeeps.1 (Or.inr (Nat.le_add_left k position)),
      hplaced.denotesFilter_of_highest hvalues hat hfits hall,
      fun hnodup => ⟨fun _ => Or.inr (Or.inl rfl),
        hplaced.highest_of_denotesFilter hvalues hat hshift hall hnodup⟩⟩
  | false =>
    rw [hoperation, if_neg Bool.false_ne_true] at hspliced
    have hkeeps := keepsFirst_splice (k := k) (by omega) (by omega) hspliced
    have hat : position + 0 ≤ r.parameters.length := by omega
    have hshift : 0 < UInt64.size := by decide
    simp only [Bool.false_eq_true, false_or]
    exact ⟨hkeeps.1, hplaced.denotesFilter_of_highest hvalues hat hfits hspliced,
      fun hnodup => ⟨hkeeps.2 hnodup,
        hplaced.highest_of_denotesFilter hvalues hat hshift hspliced hnodup⟩⟩

/-- A set operation with a number in one part and a placeholder in the other. -/
def numberedUnion : Request :=
  { source := "SELECT a FROM t WHERE a = $1 UNION SELECT b FROM u WHERE b = ?".toList
    parameters := [.text "x".toList, .text "z".toList]
    filter := .raw "a = ?".toList [.text "y".toList] }

theorem denoted_iff_numberedUnion :
    ∃ plan traced paged position,
      ({ dialect := .postgres } : Planner).plan numberedUnion = .ok plan ∧
      plan.pageStatement =
        ("SELECT * FROM (SELECT a FROM t WHERE a = $1 UNION SELECT b FROM u WHERE b = $2) " ++
          "AS pagehaus_source WHERE a = $3 LIMIT 10 OFFSET 0").toList ∧
      ({ dialect := .postgres } : Planner).Placed numberedUnion
        ⟨"a = ?".toList, [.text "y".toList]⟩ plan traced paged position ∧
      KeepsFirst numberedUnion plan 1 ∧
      ({ dialect := .postgres } : Planner).DenotesFilter ⟨"a = ?".toList, [.text "y".toList]⟩ plan
        paged := by
  have h : WellQuoted numberedUnion ⟨"a = ?".toList, [.text "y".toList]⟩ :=
    { filter_eq := by rfl
      source_closed := by decide
      filter_closed := by decide
      table := nofun
      order := by decide }
  obtain ⟨plan, hplan, -, hpage⟩ := exists_plan { dialect := .postgres } numberedUnion
    ("SELECT COUNT(*) FROM (SELECT * FROM (SELECT a FROM t WHERE a = $1 UNION SELECT b FROM u " ++
      "WHERE b = $2) AS pagehaus_source WHERE a = $3) AS pagehaus_count").toList
    ("SELECT * FROM (SELECT a FROM t WHERE a = $1 UNION SELECT b FROM u WHERE b = $2) " ++
      "AS pagehaus_source WHERE a = $3 LIMIT 10 OFFSET 0").toList
    (by decide +kernel)
  obtain ⟨traced, paged, position, hplaced, hkeeps, hdenotes, -⟩ :=
    denoted_iff (p := { dialect := .postgres }) (k := 1) (by decide) h (by decide)
      (by decide +kernel) (by decide) (by decide) hplan
  refine ⟨plan, traced, paged, position, hplan, hpage, hplaced, hkeeps (Or.inr (Or.inl ?_)),
    hdenotes (Or.inr ?_)⟩
  · decide +kernel
  · obtain ⟨t, ht, hsame⟩ : ∃ t, Trace.ofRequest .postgres numberedUnion
        (.of numberedUnion.source) "a = ?".toList = .ok t ∧
        (Trace.page .postgres numberedUnion.orderFragments
          (({ dialect := .postgres } : Planner).window numberedUnion) t).toOption.map
            (fun m => (Placeholder.highest .dollar m.text).toNat) = some 1 :=
      ⟨_, rfl, by decide +kernel⟩
    obtain rfl := Except.ok.inj (ht.symm.trans hplaced.traced_eq)
    rw [hplaced.paged_eq] at hsame
    rw [if_pos (by decide +kernel)]
    exact Option.some.inj hsame

/-- A source with a number for its only value. -/
def numberedCondition : Request :=
  { source := "SELECT * FROM users WHERE a = $1".toList
    parameters := [.text "x".toList]
    filter := .raw "b = ?".toList [.text "y".toList] }

/-- The value of the filter comes in front of the value of the number. -/
theorem not_denoted_numberedCondition :
    ∃ plan, ({ dialect := .postgres } : Planner).plan numberedCondition = .ok plan ∧
      plan.pageStatement =
        "SELECT * FROM users WHERE a = $1 AND (b = $2) LIMIT 10 OFFSET 0".toList ∧
      plan.parameters = [.text "y".toList, .text "x".toList] ∧
      ¬KeepsFirst numberedCondition plan 1 ∧ plan.parameters[1]? ≠ some (.text "y".toList) := by
  obtain ⟨plan, hplan, -, hpage⟩ := exists_plan { dialect := .postgres } numberedCondition
    "SELECT COUNT(*) FROM users WHERE a = $1 AND (b = $2)".toList
    "SELECT * FROM users WHERE a = $1 AND (b = $2) LIMIT 10 OFFSET 0".toList (by decide +kernel)
  obtain ⟨s, pageText, hs, -, hmade⟩ := eq_of_plan hplan
  have hparameters : plan.parameters = [.text "y".toList, .text "x".toList] := by
    have hnormal : (({ dialect := .postgres } : Planner).statement numberedCondition).map
        Statement.parameters = .ok [.text "y".toList, .text "x".toList] := by rfl
    rw [hs] at hnormal
    rw [hmade]
    exact Except.ok.inj hnormal
  refine ⟨plan, hplan, hpage, hparameters, fun hkeeps => ?_, fun hown => ?_⟩
  · have hsame := hkeeps 0 (by decide)
    rw [hparameters] at hsame
    exact absurd (Value.text.inj (Option.some.inj hsame)) (by decide)
  · rw [hparameters] at hown
    exact absurd (Value.text.inj (Option.some.inj hown)) (by decide)

end Planner

end PagedQuery
