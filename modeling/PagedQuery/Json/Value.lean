import PagedQuery.Json.Number

/-!
# JSON values

Bound values, rows and stored settings are JSON values. The fields of an
object are kept in increasing order of their keys, each key once: a key that
comes again replaces its value. The order of keys is by code point, which is
also the order of their UTF-8 bytes.
-/
namespace PagedQuery

/-- Association lists in increasing order of their keys. -/
abbrev Fields (α : Type) := List (Text × α)

namespace Fields

variable {α : Type}

/-- The fields with the key's value replaced, or put in at the key's place. -/
def insert (key : Text) (value : α) : Fields α → Fields α
  | [] => [(key, value)]
  | (k, v) :: rest =>
    if Text.before key k then (key, value) :: (k, v) :: rest
    else if key = k then (key, value) :: rest
    else (k, v) :: insert key value rest

/-- The fields of a list of pairs; of equal keys the last one counts. -/
def ofList (pairs : List (Text × α)) : Fields α :=
  pairs.foldl (fun fields pair => insert pair.1 pair.2 fields) []

def get? (key : Text) : Fields α → Option α
  | [] => none
  | (k, v) :: rest => if k = key then some v else get? key rest

def Sorted (fields : Fields α) : Prop := (fields.map Prod.fst).Pairwise fun s t => Text.before s t = true

theorem sorted_nil : Sorted ([] : Fields α) := List.Pairwise.nil

@[simp] theorem get?_insert (key k : Text) (value : α) (fields : Fields α) :
    get? k (insert key value fields) = if key = k then some value else get? k fields := by
  induction fields with
  | nil => simp [insert, get?]
  | cons field rest ih =>
    obtain ⟨k', v'⟩ := field
    simp only [insert]
    split
    · simp [get?]
    · split
      · rename_i h
        subst h
        by_cases hk : key = k <;> simp [get?, hk]
      · by_cases hk : k' = k
        · subst hk
          simp_all [get?]
        · simp [get?, hk, ih]

theorem key_mem_insert {key k : Text} {value : α} {fields : Fields α} :
    k ∈ (insert key value fields).map Prod.fst ↔ k = key ∨ k ∈ fields.map Prod.fst := by
  induction fields with
  | nil => simp [insert]
  | cons field rest ih =>
    obtain ⟨k', v'⟩ := field
    simp only [insert]
    split
    · simp
    · split
      · rename_i h
        simp [h]
      · rw [List.map_cons, List.mem_cons, ih, List.map_cons, List.mem_cons]
        exact or_left_comm

theorem Sorted.insert {fields : Fields α} (h : Sorted fields) (key : Text) (value : α) :
    Sorted (Fields.insert key value fields) := by
  induction fields with
  | nil => simp [Fields.insert, Sorted]
  | cons field rest ih =>
    obtain ⟨k, v⟩ := field
    obtain ⟨hk, hrest⟩ := List.pairwise_cons.mp h
    simp only [Fields.insert]
    split
    · rename_i hlt
      refine List.pairwise_cons.mpr ⟨fun k' hk' => ?_, h⟩
      rcases List.mem_cons.mp hk' with rfl | hmem
      · exact hlt
      · exact Text.before_trans hlt (hk k' hmem)
    · split
      · rename_i heq
        subst heq
        exact h
      · rename_i hlt hne
        refine List.pairwise_cons.mpr ⟨fun k' hk' => ?_, ih hrest⟩
        rcases key_mem_insert.mp hk' with rfl | hmem
        · exact Text.before_of_ne hne (by simpa using hlt)
        · exact hk k' hmem

theorem sorted_ofList (pairs : List (Text × α)) : Sorted (ofList pairs) := by
  have go (fields : Fields α) (h : Sorted fields) :
      Sorted (pairs.foldl (fun fields pair => Fields.insert pair.1 pair.2 fields) fields) := by
    induction pairs generalizing fields with
    | nil => exact h
    | cons pair pairs ih => exact ih _ (h.insert pair.1 pair.2)
  exact go [] sorted_nil
end Fields

inductive Value where
  | null
  | bool (b : Bool)
  | number (n : Number)
  | text (t : Text)
  | array (items : List Value)
  | object (fields : List (Text × Value))
  deriving Repr, Inhabited

namespace Value

/-- The object with the given fields, in the order of their keys. -/
def ofFields (pairs : List (Text × Value)) : Value := object (Fields.ofList pairs)

def kind : Value → Text
  | null => "null".toList
  | bool _ => "bool".toList
  | number _ => "number".toList
  | text _ => "string".toList
  | array _ => "array".toList
  | object _ => "object".toList

end Value

end PagedQuery
