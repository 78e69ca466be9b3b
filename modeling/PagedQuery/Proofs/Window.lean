import Mathlib.Data.List.TakeDrop
import Mathlib.Data.List.TakeWhile
import Mathlib.Tactic.Common
import Mathlib.Tactic.Ring
import PagedQuery.Proofs.Numbering
import PagedQuery.Statement.Page

/-!
# Pages of a result

A limit clause keeps some of the rows of a statement: it skips rows and takes
some, or it numbers them and keeps the numbers between two bounds. In every
dialect the clause of a window keeps the rows of its page, counted in exact
integers, though the words of the window stop at the largest one: a result that
a word can count has no rows where they do. So the pages of one size, put one
behind the other, are the result.
-/
namespace PagedQuery

namespace Text

/-- The digits spell the number. -/
def Spells (digits : Text) (n : ℕ) : Prop :=
  digits ≠ [] ∧ digits.all Char.isDigit = true ∧ digitsValue 0 digits = n

theorem spells_ofNat (n : ℕ) : Spells (ofNat n) n := by
  refine ⟨Nat.toDigits_ne_nil, ?_, Nat.ofDigitChars_ten_toDigits⟩
  exact List.all_eq_true.mpr fun c hc => Nat.isDigit_of_mem_toDigits (by decide) (by decide) hc

theorem Spells.inj {digits : Text} {m n : ℕ} (hm : Spells digits m) (hn : Spells digits n) :
    m = n := hm.2.2.symm.trans hn.2.2

theorem digits_append_inj {a b s t : Text} (h : a ++ s = b ++ t) (ha : a.all Char.isDigit = true)
    (hb : b.all Char.isDigit = true) (hs : s.takeWhile Char.isDigit = [])
    (ht : t.takeWhile Char.isDigit = []) : a = b ∧ s = t := by
  have hleft : (a ++ s).takeWhile Char.isDigit = a := by
    rw [List.takeWhile_append_of_pos (List.all_eq_true.mp ha), hs, List.append_nil]
  have hright : (b ++ t).takeWhile Char.isDigit = b := by
    rw [List.takeWhile_append_of_pos (List.all_eq_true.mp hb), ht, List.append_nil]
  have hab : a = b := by rw [← hleft, h, hright]
  exact ⟨hab, List.append_cancel_left (hab ▸ h)⟩

end Text

/-- What a limit keeps of the rows of a statement: `take` rows behind the first `skip` ones, or, of
the rows numbered from one, those with a number up to `last` and above `floor`. -/
inductive RowCut where
  | skipTake (skip take : ℕ)
  | numbered (last floor : ℕ)
  deriving DecidableEq, Repr

variable {Row : Type}

def RowCut.rows (rows : List Row) : RowCut → List Row
  | skipTake skip take => (rows.drop skip).take take
  | numbered last floor =>
    (((rows.zipIdx 1).filter fun row => row.2 ≤ last).filter fun row => floor < row.2).map Prod.fst

/-- The rows with an index from `first` on and before `behind`, counted from zero. -/
def rowsBetween (first behind : ℤ) (rows : List Row) : List Row :=
  (rows.zipIdx.filter fun row => first ≤ row.2 ∧ (row.2 : ℤ) < behind).map Prod.fst

open Text (Spells)

/-- The statement asks in the given syntax for a cut of the rows of `t`, with a lock at its end. -/
def LimitSyntax.Asks (limit : LimitSyntax) (t locking statement : Text) (cut : RowCut) : Prop :=
  ∃ a b m n, Spells a m ∧ Spells b n ∧
    match limit with
    | .limitOffset =>
      statement = t ++ " LIMIT ".toList ++ a ++ " OFFSET ".toList ++ b ++ locking ∧
        cut = .skipTake n m
    | .offsetFetch =>
      statement = t ++ " OFFSET ".toList ++ a ++ " ROWS FETCH NEXT ".toList ++ b ++
        " ROWS ONLY".toList ++ locking ∧ cut = .skipTake m n
    | .rowNum =>
      statement = "SELECT * FROM (SELECT row_.*, ROWNUM rownum_ FROM (".toList ++ t ++
        ") row_ WHERE ROWNUM <= ".toList ++ a ++ ") WHERE rownum_ > ".toList ++ b ∧
        cut = .numbered m n

/-- The cut that a window means. -/
def LimitSyntax.cut (limit : LimitSyntax) (w : Window) : RowCut :=
  match limit with
  | .limitOffset | .offsetFetch => .skipTake w.offset.toNat w.pageSize.toNat
  | .rowNum => .numbered w.last.toNat w.offset.toNat

namespace Statement

theorem spells_word (n : UInt64) : Spells (word n) n.toNat := Text.spells_ofNat n.toNat

/-- A limited statement asks for the cut of its window and for no other one. -/
theorem asks_limited_iff {limit : LimitSyntax} {w : Window} {t locking : Text} {cut : RowCut} :
    limit.Asks t locking (limited limit w t locking) cut ↔ cut = limit.cut w := by
  have hsize := spells_word w.pageSize
  have hoffset := spells_word w.offset
  have hlast := spells_word w.last
  constructor
  · rintro ⟨a, b, m, n, ha, hb, h⟩
    cases limit with
    | limitOffset =>
      obtain ⟨htext, rfl⟩ := h
      unfold limited at htext
      simp only [List.append_assoc, List.append_cancel_left_eq] at htext
      obtain ⟨rfl, hrest⟩ := Text.digits_append_inj htext hsize.2.1 ha.2.1 rfl rfl
      have hoff := List.append_cancel_right (List.append_cancel_left hrest)
      rw [LimitSyntax.cut, hsize.inj ha, hoffset.inj (hoff ▸ hb)]
    | offsetFetch =>
      obtain ⟨htext, rfl⟩ := h
      unfold limited at htext
      simp only [List.append_assoc, List.append_cancel_left_eq] at htext
      obtain ⟨rfl, hrest⟩ := Text.digits_append_inj htext hoffset.2.1 ha.2.1 rfl rfl
      rw [List.append_cancel_left_eq] at hrest
      obtain ⟨rfl, -⟩ := Text.digits_append_inj hrest hsize.2.1 hb.2.1 rfl rfl
      rw [LimitSyntax.cut, hoffset.inj ha, hsize.inj hb]
    | rowNum =>
      obtain ⟨htext, rfl⟩ := h
      unfold limited at htext
      simp only [List.append_assoc, List.append_cancel_left_eq] at htext
      obtain ⟨rfl, hrest⟩ := Text.digits_append_inj htext hlast.2.1 ha.2.1 rfl rfl
      rw [List.append_cancel_left_eq] at hrest
      rw [LimitSyntax.cut, hlast.inj ha, hoffset.inj (hrest ▸ hb)]
  · rintro rfl
    cases limit with
    | limitOffset => exact ⟨_, _, _, _, hsize, hoffset, rfl, rfl⟩
    | offsetFetch => exact ⟨_, _, _, _, hoffset, hsize, rfl, rfl⟩
    | rowNum => exact ⟨_, _, _, _, hlast, hoffset, rfl, rfl⟩

end Statement

section

variable (rows : List Row)

/-- Rows chosen by their numbers are a stretch of the rows. -/
theorem map_filter_zipIdx (start first behind : ℕ) :
    ((rows.zipIdx start).filter fun row => first ≤ row.2 ∧ row.2 < behind).map Prod.fst =
      (rows.drop (first - start)).take (behind - max first start) := by
  induction rows generalizing start with
  | nil => simp
  | cons row rows ih =>
    rw [List.zipIdx_cons, List.filter_cons]
    rcases Nat.lt_or_ge start first with hfirst | hfirst
    · have hdrop : first - start = first - (start + 1) + 1 := by omega
      rw [if_neg (by simp; omega), ih, hdrop, List.drop_succ_cons, Nat.max_eq_left (by omega),
        Nat.max_eq_left (by omega)]
    · rw [Nat.sub_eq_zero_of_le hfirst, List.drop_zero, Nat.max_eq_right hfirst]
      rcases Nat.lt_or_ge start behind with hbehind | hbehind
      · have htake : behind - start = behind - (start + 1) + 1 := by omega
        rw [if_pos (by simp; omega), List.map_cons, ih, htake, List.take_succ_cons,
          Nat.max_eq_right (by omega), Nat.sub_eq_zero_of_le (show first ≤ start + 1 by omega),
          List.drop_zero]
      · rw [if_neg (by simp; omega), ih, Nat.sub_eq_zero_of_le hbehind, List.take_zero,
          Nat.sub_eq_zero_of_le (by omega), List.take_zero]

theorem rowsBetween_eq (first behind : ℕ) :
    rowsBetween first behind rows = (rows.drop first).take (behind - first) := by
  have h := map_filter_zipIdx rows 0 first behind
  rw [Nat.max_zero, Nat.sub_zero] at h
  simpa only [rowsBetween, Nat.cast_le, Nat.cast_lt] using h

theorem rows_numbered (last floor : ℕ) :
    (RowCut.numbered last floor).rows rows = (rows.drop floor).take (last - floor) := by
  have hsplit : ∀ row : Row × ℕ, (decide (row.2 ≤ last) && decide (floor < row.2)) =
      decide (floor + 1 ≤ row.2 ∧ row.2 < last + 1) := by
    intro row
    rw [← Bool.decide_and, decide_eq_decide]
    omega
  rw [RowCut.rows, List.filter_filter]
  simp only [Bool.and_comm (decide (floor < _)), hsplit, map_filter_zipIdx rows 1]
  rw [Nat.max_eq_left (by omega), Nat.add_sub_cancel, Nat.add_sub_add_right]

variable {rows}

/-- A stretch of rows does not change when its bounds stop at a number that no row reaches. -/
theorem drop_min {bound : ℕ} (h : rows.length ≤ bound) (first : ℕ) :
    rows.drop (min first bound) = rows.drop first := by
  rcases Nat.lt_or_ge first bound with hlt | hge
  · rw [Nat.min_eq_left hlt.le]
  · rw [Nat.min_eq_right hge, List.drop_of_length_le h, List.drop_of_length_le (h.trans hge)]

theorem take_drop_min {bound : ℕ} (h : rows.length ≤ bound) (first behind : ℕ) :
    (rows.drop first).take (min behind bound - min first bound) =
      (rows.drop first).take (behind - first) := by
  rw [List.take_eq_take_iff, List.length_drop]
  omega

/-- Stretches of one size make up the beginning of the rows. -/
theorem flatMap_stretches (size count : ℕ) :
    (List.range count).flatMap (fun i => (rows.drop (i * size)).take size) =
      rows.take (count * size) := by
  induction count with
  | zero => rw [Nat.zero_mul, List.take_zero, List.range_zero, List.flatMap_nil]
  | succ count ih =>
    rw [List.range_succ, List.flatMap_append, ih, List.flatMap_singleton, Nat.succ_mul,
      List.take_add]

end

namespace Window

theorem pageNumber_toNat (page : Int64) :
    ((pageNumber page).toNat : ℤ) = max page.toInt 1 := by
  unfold pageNumber
  split
  · rename_i h
    have hle : page.toInt ≤ 0 := by simpa [Int64.le_iff_toInt_le] using h
    exact (Int.max_eq_right (by omega)).symm
  · rename_i h
    have hlt : ¬page.toInt ≤ 0 := by simpa [Int64.le_iff_toInt_le] using h
    rw [Word.ofPositive_toNat]
    omega

theorem pageNumber_pos (page : Int64) : 1 ≤ (pageNumber page).toNat := by
  have := pageNumber_toNat page
  omega

/-- The size that is meant by a requested one, before the maximum caps it. -/
def wanted (requested : Int64) (default : UInt64) : ℕ :=
  if requested.toInt ≤ 0 then max default.toNat 1 else requested.toInt.toNat

theorem wanted_pos (requested : Int64) (default : UInt64) : 1 ≤ wanted requested default := by
  unfold wanted
  split <;> omega

theorem size_toNat (requested : Int64) (default maximum : UInt64) :
    (size requested default maximum).toNat =
      if 0 < maximum.toNat then min (wanted requested default) maximum.toNat
      else wanted requested default := by
  have hwanted : (if requested ≤ 0 then max default 1 else Word.ofPositive requested).toNat =
      wanted requested default := by
    unfold wanted
    simp only [Int64.le_iff_toInt_le, Int64.toInt_zero]
    split
    · exact UInt64.toNat_max default 1
    · exact Word.ofPositive_toNat requested
  unfold size
  simp only [UInt64.lt_iff_toNat_lt, UInt64.toNat_zero]
  split
  · rw [UInt64.toNat_min, hwanted]
  · exact hwanted

theorem size_pos (requested : Int64) (default maximum : UInt64) :
    1 ≤ (size requested default maximum).toNat := by
  have := wanted_pos requested default
  rw [size_toNat]
  split <;> omega

theorem size_le {requested : Int64} {default maximum : UInt64} (h : 0 < maximum) :
    (size requested default maximum).toNat ≤ maximum.toNat := by
  rw [UInt64.lt_iff_toNat_lt, UInt64.toNat_zero] at h
  rw [size_toNat, if_pos h]
  exact Nat.min_le_right _ _

section

variable (page requested : Int64) (default maximum : UInt64)

/-- The words of a window stop at the largest one. -/
theorem offset_toNat :
    (of page requested default maximum).offset.toNat =
      min (((pageNumber page).toNat - 1) * (size requested default maximum).toNat)
        (2 ^ 64 - 1) := by
  have hone : (1 : UInt64) ≤ pageNumber page := UInt64.le_iff_toNat_le.mpr (pageNumber_pos page)
  change (Word.saturated ((pageNumber page - 1).toNat * _)).toNat = _
  rw [Word.saturated_toNat, UInt64.toNat_sub_of_le _ _ hone]
  rfl

theorem last_toNat :
    (of page requested default maximum).last.toNat =
      min ((pageNumber page).toNat * (size requested default maximum).toNat) (2 ^ 64 - 1) := by
  obtain ⟨n, hn⟩ := Nat.exists_eq_add_of_le' (pageNumber_pos page)
  change (Word.saturated (_ + (size requested default maximum).toNat)).toNat = _
  rw [Word.saturated_toNat, offset_toNat, hn, Nat.add_sub_cancel, Nat.succ_mul]
  omega

theorem pageNumber_ofNat {n : ℕ} (hpos : 1 ≤ n) (hn : n ≤ 2 ^ 63 - 1) :
    (pageNumber (.ofNat n)).toNat = n := by
  have h := pageNumber_toNat (.ofNat n)
  rw [Int64.toInt_ofNat_of_lt (by omega)] at h
  omega

/-- A window ends where the next one begins. -/
theorem last_eq_offset {n : ℕ} (hpos : 1 ≤ n) (hn : n < 2 ^ 63 - 1) :
    (of (.ofNat n) requested default maximum).last =
      (of (.ofNat (n + 1)) requested default maximum).offset := by
  rw [← UInt64.toNat_inj, last_toNat, offset_toNat, pageNumber_ofNat hpos hn.le,
    pageNumber_ofNat (Nat.le_add_left 1 n) hn, Nat.add_sub_cancel]

variable {rows : List Row}

/-- The cut of a window keeps the rows of its page. -/
theorem cut_rows (limit : LimitSyntax) (h : rows.length ≤ 2 ^ 64 - 1) :
    (limit.cut (of page requested default maximum)).rows rows =
      (rows.drop (((pageNumber page).toNat - 1) * (size requested default maximum).toNat)).take
        (size requested default maximum).toNat := by
  cases limit with
  | limitOffset =>
    change (rows.drop (of page requested default maximum).offset.toNat).take _ = _
    rw [offset_toNat, drop_min h]
    rfl
  | offsetFetch =>
    change (rows.drop (of page requested default maximum).offset.toNat).take _ = _
    rw [offset_toNat, drop_min h]
    rfl
  | rowNum =>
    obtain ⟨n, hn⟩ := Nat.exists_eq_add_of_le' (pageNumber_pos page)
    rw [LimitSyntax.cut, rows_numbered, offset_toNat, last_toNat, drop_min h, take_drop_min h, hn,
      Nat.add_sub_cancel, Nat.succ_mul, Nat.add_sub_cancel_left]

/-- Every limit clause of a window keeps the rows of its page, counted in exact integers, and the
pages of one size make up the rows. -/
theorem limited_cuts_pages (d : Dialect) (t locking : Text) (h : rows.length ≤ 2 ^ 64 - 1) :
    ∃ (s : ℕ) (cut : Int64 → RowCut), 1 ≤ s ∧ (0 < maximum → s ≤ maximum.toNat) ∧
      (∀ page, (of page requested default maximum).pageSize.toNat = s ∧
        (∀ c, d.limitSyntax.Asks t locking
          (Statement.limited d.limitSyntax (of page requested default maximum) t locking) c ↔
            c = cut page) ∧
        (cut page).rows rows =
          rowsBetween ((max page.toInt 1 - 1) * s) (max page.toInt 1 * s) rows) ∧
      (rows.length ≤ (2 ^ 63 - 1) * s →
        (List.range ((rows.length + s - 1) / s)).flatMap
          (fun i => (cut (.ofNat (i + 1))).rows rows) = rows) ∧
      ∀ n : ℕ, 1 ≤ n → n < 2 ^ 63 - 1 →
        (of (.ofNat n) requested default maximum).last =
          (of (.ofNat (n + 1)) requested default maximum).offset := by
  have hcut := fun page => cut_rows page requested default maximum d.limitSyntax h
  have hpos := size_pos requested default maximum
  generalize hs : (size requested default maximum).toNat = s at hcut hpos
  refine ⟨s, fun page => d.limitSyntax.cut (of page requested default maximum), hpos,
    fun hmax => hs ▸ size_le hmax, fun page => ⟨hs, fun c => Statement.asks_limited_iff, ?_⟩,
    fun hN => ?_, fun n => last_eq_offset requested default maximum⟩
  · obtain ⟨n, hn⟩ := Nat.exists_eq_add_of_le' (pageNumber_pos page)
    have hbefore : (max page.toInt 1 - 1) * (s : ℤ) = (n * s : ℕ) := by
      rw [← pageNumber_toNat, hn]
      push_cast
      ring
    have hbehind : max page.toInt 1 * (s : ℤ) = (n * s + s : ℕ) := by
      rw [← pageNumber_toNat, hn]
      push_cast
      ring
    rw [hcut, hbefore, hbehind, rowsBetween_eq, hn, Nat.add_sub_cancel, Nat.add_sub_cancel_left]
  · have hcount : (rows.length + s - 1) / s ≤ 2 ^ 63 - 1 := by
      refine Nat.lt_succ_iff.mp ((Nat.div_lt_iff_lt_mul hpos).mpr ?_)
      rw [Nat.succ_mul]
      omega
    have hpage : ∀ i ∈ List.range ((rows.length + s - 1) / s),
        (d.limitSyntax.cut (of (.ofNat (i + 1)) requested default maximum)).rows rows =
          (rows.drop (i * s)).take s := by
      intro i hi
      have hlt := List.mem_range.mp hi
      rw [hcut, pageNumber_ofNat (Nat.le_add_left 1 i) (by omega), Nat.add_sub_cancel]
    have hall : rows.length ≤ (rows.length + s - 1) / s * s := by
      have := Nat.lt_div_mul_add (a := rows.length + s - 1) hpos
      omega
    calc (List.range ((rows.length + s - 1) / s)).flatMap
          (fun i => (d.limitSyntax.cut (of (.ofNat (i + 1)) requested default maximum)).rows rows)
        = (List.range ((rows.length + s - 1) / s)).flatMap
          (fun i => (rows.drop (i * s)).take s) := List.flatMap_congr hpage
      _ = rows.take ((rows.length + s - 1) / s * s) := flatMap_stretches s _
      _ = rows := List.take_of_length_le hall

end

/-- Three rows on pages of two, cut by their row numbers. -/
theorem limited_cuts_pages_rowNumbers :
    [1, 2, 3].length ≤ 2 ^ 64 - 1 ∧ ∃ cut : Int64 → RowCut,
      (∀ c, LimitSyntax.rowNum.Asks "SELECT a FROM t".toList []
        (Statement.limited .rowNum (of 2 2 10 0) "SELECT a FROM t".toList []) c ↔ c = cut 2) ∧
      (cut 2).rows [1, 2, 3] = [3] ∧
      [1, 2].flatMap (fun page => (cut (.ofNat page)).rows [1, 2, 3]) = [1, 2, 3] := by
  refine ⟨by decide, ?_⟩
  obtain ⟨s, cut, -, -, hpages, hall, -⟩ := limited_cuts_pages 2 10 0 .oracleLegacy
    "SELECT a FROM t".toList [] (by decide : ([1, 2, 3] : List ℕ).length ≤ 2 ^ 64 - 1)
  obtain ⟨hsize, hasks, hrows⟩ := hpages 2
  obtain rfl : s = 2 := hsize.symm.trans (by decide)
  exact ⟨cut, hasks, hrows.trans (by decide), hall (by decide)⟩

end Window

end PagedQuery
