import Mathlib.Data.Nat.Find
import Mathlib.Order.Bounds.Basic
import PagedQuery.Proofs.Bytes.Order
import PagedQuery.Proofs.Bytes.State

/-!
# Occurrences of keywords among bytes

A keyword occurs at an offset when the folded bytes go on with it there and the state
before them is that at the beginning of the text. One pass over the bytes, with the state
carried along, finds the least such offset from the start on at which the byte is no mark
and no parenthesis, and for several keywords the least one of any of them; it finds
nothing only where there is none. Where a keyword that is not empty occurs a character of
the text begins. A keyword that begins with a space is so found at the offset of the
position at which it is found in the text, and no search reads beyond the bytes there are.
-/
namespace PagedQuery

namespace Keyword

/-- The keyword begins with a space and neither quotes nor nests. -/
def Spelled (k : Text) : Prop := k.head? = some ' ' ∧ k.all Text.isPlain = true

instance (k : Text) : Decidable (Spelled k) := inferInstanceAs (Decidable (_ ∧ _))

theorem Spelled.ne_nil {k : Text} (h : Spelled k) : k ≠ [] :=
  List.ne_nil_of_mem (List.mem_of_head? h.1)

theorem spelled_of_mem_cuts : ∀ k ∈ cuts, Spelled k := by decide

end Keyword

/-- The least number from the start on that has the property, if there is one. -/
structure Finds (P : ℕ → Prop) (start : ℕ) (found : Option ℕ) : Prop where
  some_iff : ∀ i, found = some i ↔ IsLeast {i | start ≤ i ∧ P i} i
  none_iff : found = none ↔ ∀ i, start ≤ i → ¬P i

namespace Finds

variable {P Q : ℕ → Prop} {start : ℕ} {found found' : Option ℕ}

theorem of_isLeast {i : ℕ} (h : IsLeast {i | start ≤ i ∧ P i} i) : Finds P start (some i) where
  some_iff := by
    intro j
    constructor
    · intro hj
      exact Option.some.inj hj ▸ h
    · intro hj
      exact congrArg some (h.unique hj)
  none_iff := iff_of_false (by simp) fun hno => hno i h.1.1 h.1.2

theorem of_forall (h : ∀ i, start ≤ i → ¬P i) : Finds P start none where
  some_iff := fun i => iff_of_false (by simp) fun hi => h i hi.1.1 hi.1.2
  none_iff := iff_of_true rfl h

theorem unique (h : Finds P start found) (h' : Finds P start found') : found = found' := by
  cases found' with
  | none => exact h.none_iff.mpr (h'.none_iff.mp rfl)
  | some i => exact (h.some_iff i).mpr ((h'.some_iff i).mp rfl)

theorem exists_finds (P : ℕ → Prop) (start : ℕ) : ∃ found, Finds P start found := by
  classical
  by_cases h : ∃ i, start ≤ i ∧ P i
  · exact ⟨_, of_isLeast ⟨Nat.find_spec h, fun j hj => Nat.find_min' h hj⟩⟩
  · exact ⟨_, of_forall fun i hstart hi => h ⟨i, hstart, hi⟩⟩

theorem congr (hPQ : ∀ i, P i ↔ Q i) (h : Finds P start found) : Finds Q start found := by
  obtain rfl : P = Q := funext fun i => propext (hPQ i)
  exact h

/-- The least of what is found of several properties is what is found of any of them. -/
theorem min? {α : Type} {property : α → ℕ → Prop} {finding : α → Option ℕ} {l : List α}
    (h : ∀ a ∈ l, Finds (property a) start (finding a)) :
    Finds (fun i => ∃ a ∈ l, property a i) start (l.filterMap finding).min? := by
  cases hmin : (l.filterMap finding).min? with
  | none =>
    apply of_forall
    rintro i hi ⟨a, ha, hproperty⟩
    rw [List.min?_eq_none_iff, List.filterMap_eq_nil_iff] at hmin
    exact (h a ha).none_iff.mp (hmin a ha) i hi hproperty
  | some i =>
    apply of_isLeast
    rw [List.min?_eq_some_iff] at hmin
    obtain ⟨hmem, hle⟩ := hmin
    obtain ⟨a, ha, hi⟩ := List.mem_filterMap.mp hmem
    have hleast := ((h a ha).some_iff i).mp hi
    refine ⟨⟨hleast.1.1, a, ha, hleast.1.2⟩, ?_⟩
    rintro j ⟨hj, b, hb, hproperty⟩
    cases hfinding : finding b with
    | none => exact absurd hproperty ((h b hb).none_iff.mp hfinding j hj)
    | some m =>
      have hm := ((h b hb).some_iff m).mp hfinding
      exact Nat.le_trans (hle m (List.mem_filterMap.mpr ⟨b, hb, hfinding⟩)) (hm.2 ⟨hj, hproperty⟩)

/-- What is found among the positions of a text is found among their offsets. -/
theorem map_offset {t : Text} (hP : ∀ i, P i → i < t.length) (h : Finds P start found) :
    Finds (fun o => ∃ i, o = Text.offset t i ∧ P i) (Text.offset t start)
      (found.map (Text.offset t)) := by
  cases found with
  | none =>
    apply of_forall
    rintro _ ho ⟨i, rfl, hi⟩
    exact h.none_iff.mp rfl i ((Text.offset_le_iff (hP i hi)).mp ho) hi
  | some i =>
    obtain ⟨⟨hstart, hi⟩, hleast⟩ := (h.some_iff i).mp rfl
    apply of_isLeast
    refine ⟨⟨Text.offset_mono t hstart, i, rfl, hi⟩, ?_⟩
    rintro _ ⟨ho, j, rfl, hj⟩
    exact Text.offset_mono t (hleast ⟨(Text.offset_le_iff (hP j hj)).mp ho, hj⟩)

end Finds

namespace Text

/-- The search by positions finds the least position at which the keyword occurs. -/
theorem finds_topLevel? (k t : Text) (start : ℕ) : Finds (Occurs k t) start (topLevel? k start t) := by
  cases h : topLevel? k start t with
  | none => exact .of_forall (topLevel?_eq_none_iff.mp h)
  | some i =>
    obtain ⟨ho, hstart, hfirst⟩ := topLevel?_eq_some_iff.mp h
    apply Finds.of_isLeast
    refine ⟨⟨hstart, ho⟩, fun j hj => ?_⟩
    by_contra hlt
    exact hfirst j hj.1 (Nat.lt_of_not_le hlt) hj.2

theorem finds_firstTopLevel? (keywords : List Text) (t : Text) (start : ℕ) :
    Finds (fun i => ∃ k ∈ keywords, Occurs k t i) start (firstTopLevel? keywords start t) :=
  Finds.min? fun k _ => finds_topLevel? k t start

end Text

namespace Bytes

/-- The keyword begins at the offset, outside quotes and parentheses. -/
def OccursAt (keyword t : Text) (i : ℕ) : Prop :=
  stateAt t i = {} ∧ Text.utf8 keyword <+: (folded t).drop i

instance (keyword t : Text) (i : ℕ) : Decidable (OccursAt keyword t i) :=
  inferInstanceAs (Decidable (_ ∧ _))

/-- The byte at the offset neither quotes nor nests. -/
def PlainAt (t : Text) (i : ℕ) : Prop := (folded t)[i]?.any isPlain = true

instance (t : Text) (i : ℕ) : Decidable (PlainAt t i) := inferInstanceAs (Decidable (_ = _))

section

variable {keyword t : Text} {start i j : ℕ}

theorem PlainAt.lt_length (h : PlainAt t i) : i < (folded t).length := by
  by_contra hle
  rw [PlainAt, List.getElem?_eq_none (Nat.le_of_not_lt hle)] at h
  exact absurd h (by simp)

theorem findFrom?_step {whole rest bytes : List UInt8} {b : UInt8} (state : State)
    (htail : tail? whole i = some (b :: rest)) :
    findFrom? whole bytes start state.mark state.depth i (b :: rest) =
      if start ≤ i ∧ (state = {} ∧ bytes <+: b :: rest) ∧ isPlain b = true then some (some i)
      else findFrom? whole bytes start (state.step b).mark (state.step b).depth (i + 1) rest := by
  obtain ⟨mark, depth⟩ := state
  cases mark with
  | some mark =>
    rw [if_neg (by simp), findFrom?]
    rfl
  | none =>
    by_cases hplain : isPlain b = true
    · have hstay : State.step { depth := depth } b = { depth := depth } :=
        State.step_of_isPlain rfl hplain
      obtain ⟨hmark, hopen, hclose⟩ := isPlain_iff.mp hplain
      rw [hstay, findFrom?, if_neg (by simp [hmark]), if_neg hopen, if_neg hclose]
      by_cases hat : depth = 0 ∧ start ≤ i
      · simp [hat, htail, hplain, List.isPrefixOf_iff_prefix]
      · rw [if_neg hat, if_neg]
        rintro ⟨hstart, ⟨hdepth, -⟩, -⟩
        exact hat ⟨congrArg State.depth hdepth, hstart⟩
    · rw [if_neg fun h => hplain h.2.2]
      by_cases hmark : isMark b = true
      · simp [findFrom?, State.step, hmark]
      · by_cases hopen : b = '('.toUInt8
        · subst hopen
          rfl
        · by_cases hclose : b = ')'.toUInt8
          · subst hclose
            rfl
          · exact absurd (isPlain_iff.mpr ⟨by simpa using hmark, hopen, hclose⟩) hplain

/-- The search, gone on with at an offset from the state before it. -/
def resume? (keyword t : Text) (start i : ℕ) : Option (Option ℕ) :=
  findFrom? (folded t) (Text.utf8 keyword) start (stateAt t i).mark (stateAt t i).depth i
    ((folded t).drop i)

theorem find?_eq_resume? (keyword t : Text) (start : ℕ) :
    find? keyword start t = resume? keyword t start 0 := rfl

theorem resume?_of_le (hi : (folded t).length ≤ i) : resume? keyword t start i = some none := by
  rw [resume?, List.drop_eq_nil_of_le hi, findFrom?]

theorem resume?_succ (keyword : Text) (start : ℕ) (hi : i < (folded t).length) :
    resume? keyword t start i =
      if start ≤ i ∧ OccursAt keyword t i ∧ PlainAt t i then some (some i)
      else resume? keyword t start (i + 1) := by
  have hdrop : (folded t).drop i = (folded t)[i] :: (folded t).drop (i + 1) :=
    List.drop_eq_getElem_cons hi
  have htail : tail? (folded t) i = some ((folded t)[i] :: (folded t).drop (i + 1)) := by
    rw [tail?, if_pos (Nat.le_of_lt hi), hdrop]
  have hstate : stateAt t (i + 1) = (stateAt t i).step (folded t)[i] := by
    rw [← after_take_folded, ← after_take_folded, List.take_succ_eq_append_getElem hi,
      State.after_append]
    rfl
  have hoccurs : OccursAt keyword t i ∧ PlainAt t i ↔ (stateAt t i = {} ∧
      Text.utf8 keyword <+: (folded t)[i] :: (folded t).drop (i + 1)) ∧
        isPlain (folded t)[i] = true := by
    rw [OccursAt, PlainAt, hdrop, List.getElem?_eq_getElem hi, Option.any_some]
  rw [resume?, resume?, hstate, hdrop, findFrom?_step _ htail]
  exact if_congr (and_congr_right fun _ => hoccurs.symm) rfl rfl

/-- The search goes on to every offset in front of which it finds nothing. -/
theorem find?_eq_resume?_of_lt
    (hno : ∀ j < i, start ≤ j → ¬(OccursAt keyword t j ∧ PlainAt t j)) :
    find? keyword start t = resume? keyword t start i := by
  induction i with
  | zero => exact find?_eq_resume? keyword t start
  | succ i ih =>
    rw [ih fun j hj => hno j (Nat.lt_succ_of_lt hj)]
    by_cases hi : i < (folded t).length
    · rw [resume?_succ keyword start hi, if_neg fun h => hno i (Nat.lt_succ_self i) h.1 h.2]
    · have hle := Nat.le_of_not_lt hi
      rw [resume?_of_le hle, resume?_of_le (Nat.le_succ_of_le hle)]

/-- The search ends, with every slice in range, and finds the least offset there is to find. -/
theorem find?_eq_of_finds {found : Option ℕ}
    (h : Finds (fun i => OccursAt keyword t i ∧ PlainAt t i) start found) :
    find? keyword start t = some found := by
  cases found with
  | none =>
    rw [find?_eq_resume?_of_lt fun j _ => h.none_iff.mp rfl j]
    exact resume?_of_le (Nat.le_refl _)
  | some i =>
    have hleast := (h.some_iff i).mp rfl
    have hhere : start ≤ i ∧ OccursAt keyword t i ∧ PlainAt t i := hleast.1
    have hbefore : ∀ j < i, start ≤ j → ¬(OccursAt keyword t j ∧ PlainAt t j) := by
      intro j hj hstart ho
      exact absurd (hleast.2 ⟨hstart, ho⟩) (Nat.not_le_of_lt hj)
    rw [find?_eq_resume?_of_lt hbefore, resume?_succ keyword start hhere.2.2.lt_length,
      if_pos hhere]

theorem findFirst?_eq_of_finds {keywords : List Text} {found : Option ℕ}
    (h : Finds (fun i => ∃ k ∈ keywords, OccursAt k t i ∧ PlainAt t i) start found) :
    findFirst? keywords start t = some found := by
  choose finding hfinding using fun k =>
    Finds.exists_finds (fun i => OccursAt k t i ∧ PlainAt t i) start
  have hmapM : (keywords.mapM fun k => find? k start t) = some (keywords.map finding) :=
    mapM_eq_some_map fun k _ => find?_eq_of_finds (hfinding k)
  have hmin : Finds (fun i => ∃ k ∈ keywords, OccursAt k t i ∧ PlainAt t i) start
      (keywords.filterMap finding).min? := Finds.min? fun k _ => hfinding k
  rw [findFirst?, hmapM, Option.bind_eq_bind, Option.bind_some, List.filterMap_map]
  exact congrArg some (hmin.unique h)

/-- A keyword that begins with a space begins at a byte that neither quotes nor nests. -/
theorem OccursAt.plainAt (hhead : keyword.head? = some ' ') (h : OccursAt keyword t i) :
    PlainAt t i := by
  obtain ⟨s, rfl⟩ := List.head?_eq_some_iff.mp hhead
  obtain ⟨rest, hrest⟩ := h.2
  have hbyte : (folded t)[i]? = some ' '.toUInt8 := by
    rw [← List.head?_drop, ← hrest]
    rfl
  rw [PlainAt, hbyte]
  decide

end

section

variable {k t u : Text} {i o : ℕ}

theorem exists_offset_of_byte {b : UInt8} (hb : ¬Text.Following b)
    (h : (Text.utf8 u)[o]? = some b) : ∃ i < u.length, o = Text.offset u i := by
  induction u generalizing o with
  | nil => exact absurd h (by simp)
  | cons d u ih =>
    have hsize : (String.utf8EncodeChar d).length = d.utf8Size := String.length_utf8EncodeChar d
    rw [Text.utf8_cons] at h
    by_cases ho : o < d.utf8Size
    · obtain ⟨first, following, hencoded, -, hfollowing⟩ := Text.exists_first_byte d
      rw [List.getElem?_append_left (by omega), hencoded] at h
      cases o with
      | zero => exact ⟨0, Nat.succ_pos _, rfl⟩
      | succ o => exact absurd (hfollowing b (List.mem_of_getElem? h)) hb
    · rw [List.getElem?_append_right (by omega), hsize] at h
      obtain ⟨i, hi, hoffset⟩ := ih h
      refine ⟨i + 1, Nat.succ_lt_succ hi, ?_⟩
      rw [Text.offset_cons_succ]
      omega

/-- Where a keyword occurs a character of the text begins. -/
theorem OccursAt.exists_offset (hne : k ≠ []) (h : OccursAt k t o) :
    ∃ i < t.length, o = Text.offset t i := by
  obtain ⟨c, s, rfl⟩ := List.exists_cons_of_ne_nil hne
  obtain ⟨first, following, hencoded, hfirst, -⟩ := Text.exists_first_byte c
  obtain ⟨rest, hrest⟩ := h.2
  have hbyte : (Text.utf8 (Text.fold t))[o]? = some first := by
    rw [← Text.folded_eq, ← List.head?_drop, ← hrest, Text.utf8_cons, hencoded]
    rfl
  obtain ⟨i, hi, hoffset⟩ := exists_offset_of_byte hfirst hbyte
  rw [Text.fold_length] at hi
  rw [Text.offset_fold] at hoffset
  exact ⟨i, hi, hoffset⟩

/-- The offsets at which a keyword occurs are those of the positions at which it does. -/
theorem occursAt_iff (hne : k ≠ []) :
    OccursAt k t o ↔ ∃ i, o = Text.offset t i ∧ Text.Occurs k t i := by
  have hat : ∀ i, OccursAt k t (Text.offset t i) ↔
      Place.after .start (t.take i) = .start ∧ k <+: (Text.fold t).drop i := by
    intro i
    have hdrop : (folded t).drop (Text.offset t i) = Text.utf8 ((Text.fold t).drop i) := by
      rw [Text.folded_eq, ← Text.offset_fold]
      exact (Text.utf8_take_of_cut? (Text.cut?_offset (Text.fold t) i)).2
    rw [OccursAt, stateAt_offset, ofPlace_eq_iff, hdrop, Text.utf8_prefix_iff]
  constructor
  · intro h
    obtain ⟨i, hi, rfl⟩ := h.exists_offset hne
    exact ⟨i, rfl, hi, (hat i).mp h⟩
  · rintro ⟨i, rfl, h⟩
    exact (hat i).mpr h.2

theorem find?_offset (hhead : k.head? = some ' ') (t : Text) (i : ℕ) :
    find? k (Text.offset t i) t = some ((Text.topLevel? k i t).map (Text.offset t)) := by
  have hne := List.ne_nil_of_mem (List.mem_of_head? hhead)
  have hpositions := (Text.finds_topLevel? k t i).map_offset fun j hj => hj.1
  refine find?_eq_of_finds (hpositions.congr fun o => ?_)
  rw [← occursAt_iff hne, and_iff_left_of_imp fun h => h.plainAt hhead]

theorem findFirst?_offset {keywords : List Text} (hks : ∀ k ∈ keywords, k.head? = some ' ')
    (t : Text) (i : ℕ) :
    findFirst? keywords (Text.offset t i) t
      = some ((Text.firstTopLevel? keywords i t).map (Text.offset t)) := by
  have hne : ∀ k ∈ keywords, k ≠ [] := fun k hk =>
    List.ne_nil_of_mem (List.mem_of_head? (hks k hk))
  have hpositions := (Text.finds_firstTopLevel? keywords t i).map_offset fun j hj => by
    obtain ⟨k, -, ho⟩ := hj
    exact ho.1
  refine findFirst?_eq_of_finds (hpositions.congr fun o => ?_)
  constructor
  · rintro ⟨j, rfl, k, hk, ho⟩
    have hat := (occursAt_iff (hne k hk)).mpr ⟨j, rfl, ho⟩
    exact ⟨k, hk, hat, hat.plainAt (hks k hk)⟩
  · rintro ⟨k, hk, ho, -⟩
    obtain ⟨j, rfl, hj⟩ := (occursAt_iff (hne k hk)).mp ho
    exact ⟨j, rfl, k, hk, hj⟩

end

theorem find?_eq {k : Text} (hk : k ∈ Keyword.cuts) (t : Text) (i : Nat) :
    find? k (Text.offset t i) t = some ((Text.topLevel? k i t).map (Text.offset t)) :=
  find?_offset (Keyword.head?_of_mem_cuts k hk) t i

theorem find?_zero {k : Text} (hk : k ∈ Keyword.cuts) (t : Text) :
    find? k 0 t = some ((Text.topLevel? k 0 t).map (Text.offset t)) := by
  simpa using find?_eq hk t 0

theorem findFirst?_eq {keywords : List Text} (hks : keywords ⊆ Keyword.cuts) (t : Text) (i : Nat) :
    findFirst? keywords (Text.offset t i) t
      = some ((Text.firstTopLevel? keywords i t).map (Text.offset t)) :=
  findFirst?_offset (fun k hk => Keyword.head?_of_mem_cuts k (hks hk)) t i

theorem hasTopLevel?_eq {keywords : List Text} (hks : keywords ⊆ Keyword.cuts) (t : Text)
    (i : Nat) :
    hasTopLevel? keywords (Text.offset t i) t = some (Text.hasTopLevel keywords i t) := by
  rw [hasTopLevel?, findFirst?_eq hks, Option.map_some, Option.isSome_map]
  rfl

theorem offset_behind {k t : Text} {start i : Nat} (h : Text.topLevel? k start t = some i) :
    Text.offset t i + Text.utf8Size k = Text.offset t (i + k.length) := by
  obtain ⟨rest, hrest⟩ : k <+: Text.fold (t.drop i) := by
    rw [← Text.fold_drop]
    exact (Text.occurs_of_topLevel? h).2.2
  have hk : Text.offset (Text.fold (t.drop i)) k.length = Text.utf8Size k := by
    rw [← hrest, Text.offset, List.take_left' rfl]
  rw [Text.offset_add, ← hk, Text.offset_fold]

end Bytes

end PagedQuery
