import Mathlib.Tactic.Common
import PagedQuery.Text.Utf8

/-!
# Slices by byte offsets

A text can be cut at an offset in bytes if a character begins or the text ends there,
and at no other. The offset of a position is the size of the text in front of it; the
offsets of positions are those at which a text can be cut, in the same order. So an
operation that cuts by offsets gets a result, and the one that cutting by positions
gives, wherever each offset is that of a position and the two of a slice are in order.
-/
namespace PagedQuery.Text

variable {s t u : Text} {i j n : Nat}

/-- The text in front of a byte offset and the text behind it, if no character is cut apart. -/
def cut? : Text → Nat → Option (Text × Text)
  | t, 0 => some ([], t)
  | [], _ + 1 => none
  | c :: t, n + 1 =>
    if c.utf8Size ≤ n + 1 then
      (cut? t (n + 1 - c.utf8Size)).map fun parts => (c :: parts.1, parts.2)
    else none

def before? (t : Text) (n : Nat) : Option Text := (cut? t n).map (·.1)

/-- The text from a byte offset on. -/
def from? (t : Text) (n : Nat) : Option Text := (cut? t n).map (·.2)

/-- The text between two byte offsets, which must be in order. -/
def slice? (t : Text) (first last : Nat) : Option Text :=
  if first ≤ last then do from? (← before? t last) first else none

/-- The size in bytes of the text in front of a position. -/
def offset (t : Text) (i : Nat) : Nat := utf8Size (t.take i)

@[simp] theorem cut?_zero (t : Text) : cut? t 0 = some ([], t) := by cases t <;> rfl

/-- A text is cut at the offset of each of its characters, and of its end. -/
theorem cut?_append (s u : Text) : cut? (s ++ u) (utf8Size s) = some (s, u) := by
  induction s with
  | nil => simp
  | cons c s ih =>
    have hpos := c.utf8Size_pos
    obtain ⟨n, hn⟩ : ∃ n, c.utf8Size + utf8Size s = n + 1 := ⟨_, (Nat.succ_pred (by omega)).symm⟩
    have hrest : n + 1 - c.utf8Size = utf8Size s := by omega
    simp [cut?, hn, hrest, ih, show c.utf8Size ≤ n + 1 by omega]

theorem cut?_eq_some_iff : cut? t n = some (s, u) ↔ t = s ++ u ∧ utf8Size s = n := by
  constructor
  · intro h
    induction t generalizing s n with
    | nil =>
      cases n with
      | zero => simp_all
      | succ n => simp [cut?] at h
    | cons c t ih =>
      cases n with
      | zero => simp_all
      | succ n =>
        rw [cut?] at h
        split at h
        · next hc =>
          obtain ⟨⟨front, rest⟩, hparts, heq⟩ := Option.map_eq_some_iff.mp h
          obtain ⟨rfl, rfl⟩ := Prod.mk.inj heq
          obtain ⟨rfl, hsize⟩ := ih hparts
          exact ⟨rfl, by rw [utf8Size_cons, hsize]; omega⟩
        · simp at h
  · rintro ⟨rfl, rfl⟩
    exact cut?_append s u

theorem from?_add (h : from? t n = some (s ++ u)) : from? t (n + utf8Size s) = some u := by
  obtain ⟨⟨front, rest⟩, hcut, rfl⟩ := Option.map_eq_some_iff.mp h
  obtain ⟨rfl, rfl⟩ := cut?_eq_some_iff.mp hcut
  have hbehind := cut?_append (front ++ s) u
  rw [List.append_assoc, utf8Size_append] at hbehind
  rw [from?, hbehind]
  rfl

theorem utf8_take_of_cut? (h : cut? t n = some (s, u)) :
    (utf8 t).take n = utf8 s ∧ (utf8 t).drop n = utf8 u := by
  obtain ⟨rfl, rfl⟩ := cut?_eq_some_iff.mp h
  simp [utf8_append, ← length_utf8]

/-- At the offset of a position a text is cut at that position. -/
theorem cut?_offset (t : Text) (i : Nat) : cut? t (offset t i) = some (t.take i, t.drop i) :=
  cut?_eq_some_iff.mpr ⟨(List.take_append_drop i t).symm, rfl⟩

@[simp] theorem before?_offset (t : Text) (i : Nat) : before? t (offset t i) = some (t.take i) := by
  rw [before?, cut?_offset]; rfl

@[simp] theorem from?_offset (t : Text) (i : Nat) : from? t (offset t i) = some (t.drop i) := by
  rw [from?, cut?_offset]; rfl

@[simp] theorem offset_zero (t : Text) : offset t 0 = 0 := by simp [offset]

@[simp] theorem offset_length (t : Text) : offset t t.length = utf8Size t := by simp [offset]

theorem offset_add (t : Text) (i j : Nat) : offset t (i + j) = offset t i + offset (t.drop i) j := by
  rw [offset, List.take_add, utf8Size_append]; rfl

@[simp] theorem getD_map_offset (t : Text) (found : Option Nat) :
    (found.map (offset t)).getD (utf8Size t) = offset t (found.getD t.length) := by
  rw [← offset_length, Option.getD_map]

theorem offset_cons_succ (c : Char) (t : Text) (i : Nat) :
    offset (c :: t) (i + 1) = c.utf8Size + offset t i := rfl

theorem offset_mono (t : Text) (h : i ≤ j) : offset t i ≤ offset t j := by
  obtain ⟨k, rfl⟩ := Nat.exists_eq_add_of_le h
  rw [offset_add]
  omega

theorem offset_le (t : Text) (i : Nat) : offset t i ≤ utf8Size t := by
  have hwhole := utf8Size_append (t.take i) (t.drop i)
  rw [List.take_append_drop] at hwhole
  rw [offset]
  omega

theorem offset_lt (h : i < t.length) : offset t i < utf8Size t := by
  have hwhole := utf8Size_append (t.take i) (t.drop i)
  rw [List.take_append_drop, List.drop_eq_getElem_cons h, utf8Size_cons] at hwhole
  have hpos := t[i].utf8Size_pos
  rw [offset]
  omega

theorem offset_lt_iff (h : i ≤ t.length) : offset t i < utf8Size t ↔ i < t.length := by
  refine ⟨fun hlt => ?_, offset_lt⟩
  by_contra hge
  rw [show i = t.length by omega, offset_length] at hlt
  exact Nat.lt_irrefl _ hlt

theorem offset_append_left (h : i ≤ s.length) : offset (s ++ t) i = offset s i := by
  rw [offset, List.take_append_of_le_length h]
  rfl

theorem offset_append_right (s t : Text) (i : Nat) :
    offset (s ++ t) (s.length + i) = utf8Size s + offset t i := by
  rw [offset_add, offset_append_left (Nat.le_refl _), offset_length, List.drop_left]

theorem offset_le_iff (hi : i < t.length) : offset t j ≤ offset t i ↔ j ≤ i := by
  refine ⟨fun hle => ?_, offset_mono t⟩
  by_contra hlt
  have hij : i < j := Nat.lt_of_not_le hlt
  have hinside : offset (t.take j) i < utf8Size (t.take j) :=
    offset_lt (by rw [List.length_take]; omega)
  rw [offset, List.take_take, Nat.min_eq_left (Nat.le_of_lt hij)] at hinside
  exact Nat.not_lt_of_le hle hinside

/-- Between the offsets of two positions in order lies what lies between the positions. -/
theorem slice?_offset (t : Text) (h : i ≤ j) :
    slice? t (offset t i) (offset t j) = some ((t.take j).drop i) := by
  have hfront : offset t i = offset (t.take j) i := by
    rw [offset, offset, List.take_take, Nat.min_eq_left h]
  rw [slice?, if_pos (offset_mono t h), before?_offset, hfront]
  exact from?_offset (t.take j) i

/-- The letter is two bytes; a slice that begins inside it, or runs backwards, is none. -/
example : slice? "é = ?".toList 2 4 = some " =".toList ∧ slice? "é = ?".toList 1 4 = none ∧
    slice? "é = ?".toList 4 2 = none := by decide

end PagedQuery.Text
