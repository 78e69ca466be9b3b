import PagedQuery.Build.Filter
import PagedQuery.Proofs.Build.Alignment
import PagedQuery.Proofs.Bytes.Order

/-!
# Filters on fields

A filter on fields is made from pairs of a key and a value. Of the pairs only the last
value of each key is left, so neither their order nor a map that they went through can be
seen. What is left stands in the order of the bytes of its keys, where the first object
ends the walk with an error and every other field adds a term, or nothing, with the
values of its question marks.
-/
namespace PagedQuery

namespace Fields

variable {α : Type} {key : Text} {value : α} {pairs others entries : List (Text × α)}
  {fields : Fields α}

def lastValue? (key : Text) (pairs : List (Text × α)) : Option α :=
  ((pairs.filter (·.1 = key)).map Prod.snd).getLast?

/-- The entries are those of a map to which the pairs are given one after the other. They may come
in any order. -/
structure MapOf (pairs entries : List (Text × α)) : Prop where
  nodup : (entries.map Prod.fst).Nodup
  mem_iff : ∀ key value, (key, value) ∈ entries ↔ lastValue? key pairs = some value

theorem lastValue?_concat (pairs : List (Text × α)) (k : Text) (value : α) :
    lastValue? key (pairs ++ [(k, value)]) = if k = key then some value else lastValue? key pairs := by
  rw [lastValue?, List.filter_append, List.map_append]
  split
  · rename_i h
    rw [List.filter_cons_of_pos (by simpa using h), List.filter_nil, List.map_singleton,
      List.getLast?_concat]
  · rename_i h
    rw [List.filter_cons_of_neg (by simpa using h), List.filter_nil, List.map_nil, List.append_nil,
      lastValue?]

theorem mem_of_lastValue? (h : lastValue? key pairs = some value) : (key, value) ∈ pairs := by
  obtain ⟨⟨k, v⟩, hmem, rfl⟩ := List.mem_map.mp (List.mem_of_getLast? h)
  obtain ⟨hpair, hk⟩ := List.mem_filter.mp hmem
  rw [decide_eq_true_eq] at hk
  exact hk ▸ hpair

theorem lastValue?_of_mem (hnodup : (pairs.map Prod.fst).Nodup) (h : (key, value) ∈ pairs) :
    lastValue? key pairs = some value := by
  have hne : (pairs.filter (·.1 = key)).map Prod.snd ≠ [] :=
    List.ne_nil_of_mem (List.mem_map_of_mem (List.mem_filter.mpr ⟨h, decide_eq_true rfl⟩))
  have hlast : lastValue? key pairs = some _ := List.getLast?_eq_some_getLast hne
  have hsame := List.inj_on_of_nodup_map hnodup (mem_of_lastValue? hlast) h rfl
  rw [hlast]
  exact congrArg (some ∘ Prod.snd) hsame

theorem MapOf.lastValue?_eq (h : MapOf pairs entries) (key : Text) :
    lastValue? key entries = lastValue? key pairs := by
  ext value
  rw [← h.mem_iff]
  exact ⟨mem_of_lastValue?, lastValue?_of_mem h.nodup⟩

theorem get?_ofList (key : Text) (pairs : List (Text × α)) :
    get? key (ofList pairs) = lastValue? key pairs := by
  induction pairs using List.reverseRecOn with
  | nil => rfl
  | append_singleton pairs pair ih =>
    rw [ofList, List.foldl_concat, ← ofList, get?_insert, lastValue?_concat, ih]

theorem Sorted.nodup (h : Sorted fields) : (fields.map Prod.fst).Nodup :=
  h.imp fun hlt heq => by
    subst heq
    exact absurd hlt (by rw [Text.before_irrefl]; decide)

theorem mem_iff_get? (hnodup : (fields.map Prod.fst).Nodup) :
    (key, value) ∈ fields ↔ get? key fields = some value := by
  induction fields with
  | nil => exact iff_of_false List.not_mem_nil (by simp [get?])
  | cons field rest ih =>
    obtain ⟨k, v⟩ := field
    obtain ⟨hfresh, hrest⟩ := List.nodup_cons.mp hnodup
    rw [List.mem_cons, get?, Prod.mk.injEq]
    split
    · rename_i hk
      subst hk
      have hother : (k, value) ∉ rest := fun hmem =>
        hfresh (List.mem_map.mpr ⟨_, hmem, rfl⟩)
      simp [hother, eq_comm]
    · rename_i hk
      rw [← ih hrest]
      exact or_iff_right fun h => hk h.1.symm

theorem mapOf_ofList (pairs : List (Text × α)) : MapOf pairs (ofList pairs) where
  nodup := (sorted_ofList pairs).nodup
  mem_iff key value := by rw [mem_iff_get? (sorted_ofList pairs).nodup, get?_ofList]

/-- The fields of the pairs are the one list of the entries of their map in the order of the keys. -/
theorem MapOf.eq_ofList (h : MapOf pairs entries) (hsorted : Sorted entries) :
    entries = ofList pairs := by
  have hfields := mapOf_ofList pairs
  have hperm : entries.Perm (ofList pairs) :=
    (List.perm_ext_iff_of_nodup h.nodup.of_map hfields.nodup.of_map).mpr fun ⟨key, value⟩ => by
      rw [h.mem_iff, hfields.mem_iff]
  refine hperm.eq_of_pairwise ?_ (List.pairwise_map.mp hsorted)
    (List.pairwise_map.mp (sorted_ofList pairs))
  intro a b _ _ hab hba
  have hloop := Text.before_trans hab hba
  rw [Text.before_irrefl] at hloop
  exact absurd hloop (by decide)

theorem ofList_congr (h : ∀ key, lastValue? key others = lastValue? key pairs) :
    ofList others = ofList pairs := by
  refine MapOf.eq_ofList ⟨(mapOf_ofList others).nodup, fun key value => ?_⟩ (sorted_ofList others)
  rw [(mapOf_ofList others).mem_iff, h]

theorem sorted_iff_bytesBefore :
    Sorted fields ↔ (fields.map Prod.fst).Pairwise Text.BytesBefore := by
  simp only [Sorted, Text.before_iff_bytesBefore]

end Fields

namespace Filter

open Fields (lastValue? MapOf)

variable {p : Predicate} {key : Text} {value : Value} {condition : Condition}
  {front fields pairs : List (Text × Value)}

/-- What a field puts into the fragment: a term, and values for its question marks. A blank key puts
in nothing, and neither does an empty array. -/
def part? (field : Text × Value) : Option Fragment :=
  if Text.trim field.1 = [] then Option.none
  else
    match field.2 with
    | .object _ | .array [] => Option.none
    | .null => some ⟨field.1 ++ " IS NULL".toList, []⟩
    | .array items =>
      some ⟨field.1 ++ " IN (".toList ++ List.intercalate ", ".toList (items.map fun _ => ['?']) ++
        ")".toList, items⟩
    | value => some ⟨field.1 ++ " = ?".toList, [value]⟩

/-- The parts one after the other, with `AND` between their texts. -/
def joined (parts : List Fragment) : Fragment :=
  ⟨List.intercalate " AND ".toList (parts.map Fragment.text), parts.flatMap Fragment.values⟩

theorem fieldCondition?_eq_none_iff :
    fieldCondition? key value = Option.none ↔ ∃ entries, value = .object entries := by
  cases value <;> simp [fieldCondition?]

theorem questionMarks_length (items : List Value) : Condition.questionMarks items.length =
    List.intercalate ", ".toList (items.map fun _ => ['?']) := by
  rw [Condition.questionMarks, List.map_const']

theorem render_fieldCondition (h : fieldCondition? key value = some condition) :
    condition.render.toOption = part? (key, value) := by
  have hscalar (v : Value) : (Condition.compare key .eq v).render.toOption =
      if Text.trim key = [] then Option.none else some ⟨key ++ " = ?".toList, [v]⟩ := by
    simp only [Condition.render, Condition.onField, Text.isAllBlank_iff, List.append_assoc]
    split <;> rfl
  cases value with
  | object entries => exact absurd h (by simp [fieldCondition?])
  | null =>
    obtain rfl := Option.some.inj h
    simp only [Condition.render, Condition.onField, Text.isAllBlank_iff, part?]
    split <;> rfl
  | array items =>
    obtain rfl := Option.some.inj h
    simp only [Condition.render, Condition.onField, Text.isAllBlank_iff, part?]
    split
    · rfl
    · cases items with
      | nil => rfl
      | cons item items =>
        simp only [questionMarks_length, List.append_assoc]
        rfl
  | bool b => exact Option.some.inj h ▸ hscalar _
  | number n => exact Option.some.inj h ▸ hscalar _
  | text t => exact Option.some.inj h ▸ hscalar _

theorem require_of_lenient (hp : p.strict = false) (condition : Condition) :
    p.require condition = condition.render.toOption.elim p p.push := by
  unfold Predicate.require
  cases condition.render with
  | ok f => rfl
  | error reason => simp [Predicate.reject, hp, Except.toOption]

/-- The first object ends the walk, whatever came before it. -/
theorem requireFields_append_object (p : Predicate) (key : Text)
    (entries : List (Text × Value)) (rest : List (Text × Value))
    (hfront : ∀ field ∈ front, ∀ entries, field.2 ≠ .object entries) :
    requireFields p (front ++ (key, .object entries) :: rest) =
      .error (.unsupported key "object".toList) := by
  induction front generalizing p with
  | nil => rfl
  | cons field front ih =>
    obtain ⟨k, v⟩ := field
    obtain ⟨hv, hfront⟩ := List.forall_mem_cons.mp hfront
    rw [List.cons_append, requireFields]
    cases hc : fieldCondition? k v with
    | none =>
      obtain ⟨fs, hfs⟩ := fieldCondition?_eq_none_iff.mp hc
      exact absurd hfs (hv fs)
    | some condition => exact ih _ hfront

theorem requireFields_eq_ok (hp : p.strict = false)
    (h : ∀ field ∈ fields, ∀ entries, field.2 ≠ .object entries) :
    requireFields p fields = .ok ((fields.filterMap part?).foldl Predicate.push p) := by
  induction fields generalizing p with
  | nil => rfl
  | cons field fields ih =>
    obtain ⟨k, v⟩ := field
    obtain ⟨hv, h⟩ := List.forall_mem_cons.mp h
    rw [requireFields]
    cases hc : fieldCondition? k v with
    | none =>
      obtain ⟨fs, hfs⟩ := fieldCondition?_eq_none_iff.mp hc
      exact absurd hfs (hv fs)
    | some condition =>
      dsimp only
      rw [require_of_lenient hp, render_fieldCondition hc, List.filterMap_cons]
      cases part? (k, v) with
      | none => exact ih hp h
      | some f => exact ih (hp : (p.push f).strict = false) h

theorem foldl_push (p : Predicate) (parts : List Fragment) :
    (parts.foldl Predicate.push p).terms = p.terms ++ parts.map Fragment.text ∧
      (parts.foldl Predicate.push p).values = p.values ++ parts.flatMap Fragment.values := by
  induction parts generalizing p with
  | nil => exact ⟨(List.append_nil _).symm, (List.append_nil _).symm⟩
  | cons f parts ih =>
    obtain ⟨hterms, hvalues⟩ := ih (p.push f)
    exact ⟨hterms.trans (List.append_assoc ..), hvalues.trans (List.append_assoc ..)⟩

/-- Of fields in the order of their keys the first object has the least key. -/
theorem exists_render_fields_eq_error (hsorted : Fields.Sorted fields)
    {entries : List (Text × Value)} (hmem : (key, .object entries) ∈ fields) :
    ∃ key entries, (key, .object entries) ∈ fields ∧
      (∀ other entries, (other, .object entries) ∈ fields → other ≠ key →
        Text.BytesBefore key other) ∧
      (Filter.fields fields).render = .error (.unsupported key "object".toList) := by
  cases hfirst : fields.find? fun field => (fieldCondition? field.1 field.2).isNone with
  | none => exact absurd rfl (List.find?_eq_none.mp hfirst _ hmem)
  | some field =>
    obtain ⟨hfield, front, rest, rfl, hfront⟩ := List.find?_eq_some_iff_append.mp hfirst
    obtain ⟨first, value⟩ := field
    obtain ⟨entries, rfl⟩ := fieldCondition?_eq_none_iff.mp (Option.isNone_iff_eq_none.mp hfield)
    have hplain : ∀ field ∈ front, ∀ entries, field.2 ≠ .object entries := by
      intro field hfield entries hvalue
      have hsome := hfront field hfield
      rw [hvalue] at hsome
      exact absurd hsome Bool.false_ne_true
    refine ⟨first, entries, List.mem_append_right _ List.mem_cons_self, ?_, ?_⟩
    · intro other entries hother hne
      rcases List.mem_append.mp hother with hother | hother
      · exact absurd rfl (hplain _ hother entries)
      · rcases List.mem_cons.mp hother with heq | hother
        · exact absurd (congrArg Prod.fst heq) hne
        · rw [Fields.sorted_iff_bytesBefore, List.map_append, List.pairwise_append] at hsorted
          exact (List.pairwise_cons.mp hsorted.2.1).1 other (List.mem_map_of_mem hother)
    · rw [render, requireFields_append_object _ _ _ _ hplain]
      rfl

theorem render_fields_eq_ok (h : ∀ field ∈ fields, ∀ entries, field.2 ≠ .object entries) :
    (Filter.fields fields).render = .ok (joined (fields.filterMap part?)) := by
  obtain ⟨hterms, hvalues⟩ := foldl_push (.empty false) (fields.filterMap part?)
  rw [render, requireFields_eq_ok rfl h]
  change Except.ok (Predicate.build _) = _
  rw [Predicate.build, hterms, hvalues]
  rfl

/-- Quotations of the text end in it, and it has a question mark outside of them for each value. -/
def Balanced (f : Fragment) : Prop :=
  Quote.Closed f.text ∧ Placeholder.count f.text = f.values.length

theorem balanced_append {t : Text} {vs : List Value} (ht : Quote.Closed t ∧ Placeholder.count t = 0)
    {u : Text} (hu : Balanced ⟨u, vs⟩) : Balanced ⟨t ++ u, vs⟩ :=
  ⟨ht.1.append hu.1, by rw [Placeholder.count_append ht.1, ht.2, Nat.zero_add]; exact hu.2⟩

theorem balanced_of_part? (hkey : Quote.Closed key ∧ Placeholder.count key = 0) {f : Fragment}
    (h : part? (key, value) = some f) : Balanced f := by
  rw [part?] at h
  split at h
  · exact absurd h (by simp)
  · have hscalar (v : Value) : Balanced ⟨key ++ " = ?".toList, [v]⟩ :=
      balanced_append hkey ⟨(by decide : Quote.Closed " = ?".toList), rfl⟩
    cases value with
    | object entries => exact absurd h (by simp)
    | null => exact Option.some.inj h ▸ balanced_append hkey ⟨by decide, rfl⟩
    | array items =>
      cases items with
      | nil => exact absurd h (by simp)
      | cons item items =>
        obtain rfl := Option.some.inj h
        have hmarks := Condition.aligned_questionMarks (item :: items)
        have hopen : Quote.Closed " IN (".toList := by decide
        rw [questionMarks_length] at hmarks
        rw [List.append_assoc, List.append_assoc]
        refine balanced_append hkey ⟨hopen.append (hmarks.closed.quote.append (by decide)), ?_⟩
        change Placeholder.count (_ ++ (_ ++ _)) = _
        rw [Placeholder.count_append hopen, Placeholder.count_append hmarks.closed.quote,
          hmarks.count_eq]
        exact Nat.zero_add _
    | bool b => exact Option.some.inj h ▸ hscalar _
    | number n => exact Option.some.inj h ▸ hscalar _
    | text t => exact Option.some.inj h ▸ hscalar _

theorem balanced_joined {parts : List Fragment} (h : ∀ f ∈ parts, Balanced f) :
    Balanced (joined parts) := by
  induction parts with
  | nil => exact ⟨rfl, rfl⟩
  | cons f parts ih =>
    obtain ⟨hf, h⟩ := List.forall_mem_cons.mp h
    cases parts with
    | nil =>
      rw [joined, List.map_singleton, List.intercalate_singleton, List.flatMap_singleton]
      exact hf
    | cons g parts =>
      have hand : Quote.Closed " AND ".toList := by decide
      obtain ⟨hclosed, hcount⟩ := ih h
      rw [joined, List.map_cons, List.map_cons, List.intercalate_cons_cons, List.flatMap_cons]
      refine ⟨(hf.1.append hand).append hclosed, ?_⟩
      change Placeholder.count (_ ++ _ ++ (joined (g :: parts)).text) = _
      rw [Placeholder.count_append (hf.1.append hand), Placeholder.count_append hf.1, hf.2, hcount,
        List.length_append]
      rfl

/-- What a filter made from pairs is rendered as. -/
structure Keyed (pairs : List (Text × Value)) : Prop where
  /-- Only the last value of each key counts, not the order of the pairs. -/
  of_lastValues : ∀ others, (∀ key, lastValue? key others = lastValue? key pairs) →
    ofFields others = ofFields pairs
  /-- The pairs may go through a map that gives its entries in any order. -/
  of_map : ∀ entries, MapOf pairs entries → ofFields entries = ofFields pairs
  /-- Of the objects the one with the least key is reported, and nothing else. -/
  of_object : (∃ key entries, lastValue? key pairs = some (.object entries)) →
    ∃ key entries, lastValue? key pairs = some (.object entries) ∧
      (∀ other entries, lastValue? other pairs = some (.object entries) → other ≠ key →
        Text.BytesBefore key other) ∧
      (ofFields pairs).render = .error (.unsupported key "object".toList)
  /-- Without objects the parts of the fields stand in the order of the bytes of their keys. -/
  of_values : (∀ key entries, lastValue? key pairs ≠ some (.object entries)) →
    ∃ fields, MapOf pairs fields ∧ (fields.map Prod.fst).Pairwise Text.BytesBefore ∧
      (ofFields pairs).render = .ok (joined (fields.filterMap part?))
  /-- Keys without question marks leave one for each value. -/
  balanced : (∀ pair ∈ pairs, Quote.Closed pair.1 ∧ Placeholder.count pair.1 = 0) →
    ∀ f, (ofFields pairs).render = .ok f → Placeholder.count f.text = f.values.length

theorem ofFields_congr {others : List (Text × Value)}
    (h : ∀ key, lastValue? key others = lastValue? key pairs) : ofFields others = ofFields pairs :=
  congrArg fields (Fields.ofList_congr h)

/-- A filter from pairs depends on the last value of each key only. It reports its least object or
joins the parts of its fields in the order of the bytes of their keys, with a question mark for each
value. -/
theorem keyed_ofFields (pairs : List (Text × Value)) : Keyed pairs := by
  have hmap := Fields.mapOf_ofList pairs
  have hsorted := Fields.sorted_ofList pairs
  exact
    { of_lastValues := fun others => ofFields_congr
      of_map := fun entries h => ofFields_congr h.lastValue?_eq
      of_object := by
        rintro ⟨key, entries, h⟩
        simp only [← hmap.mem_iff] at h ⊢
        exact exists_render_fields_eq_error hsorted h
      of_values := by
        intro h
        simp only [ne_eq, ← hmap.mem_iff] at h
        refine ⟨Fields.ofList pairs, hmap, Fields.sorted_iff_bytesBefore.mp hsorted,
          render_fields_eq_ok ?_⟩
        rintro ⟨key, value⟩ hmem entries rfl
        exact h key entries hmem
      balanced := by
        intro hkeys f hrender
        have hplain : ∀ field ∈ Fields.ofList pairs, ∀ entries, field.2 ≠ .object entries := by
          rintro ⟨key, value⟩ hmem entries rfl
          obtain ⟨_, _, _, _, herror⟩ := exists_render_fields_eq_error hsorted hmem
          exact nomatch hrender.symm.trans herror
        obtain rfl := Except.ok.inj (hrender.symm.trans (render_fields_eq_ok hplain))
        refine (balanced_joined fun part hpart => ?_).2
        obtain ⟨⟨key, value⟩, hmem, hpart⟩ := List.mem_filterMap.mp hpart
        have hpair := Fields.mem_of_lastValue? ((hmap.mem_iff key value).mp hmem)
        exact balanced_of_part? (hkeys _ hpair) hpart }

/-- A later value takes the place of an earlier one, whose key it keeps; the blank key and the empty
array are passed over. -/
example : (ofFields
      [("zeta".toList, .bool true), ("id".toList, .object []), ("alpha".toList, .null),
        ("tag".toList, .array []), (" ".toList, .bool true),
        ("id".toList, .array [.text "x".toList, .null])]).render =
    .ok ⟨"alpha IS NULL AND id IN (?, ?) AND zeta = ?".toList,
      [.text "x".toList, .null, .bool true]⟩ := rfl

end Filter

end PagedQuery
