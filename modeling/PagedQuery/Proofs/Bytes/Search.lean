import PagedQuery.Proofs.Bytes.Ascii
import PagedQuery.Proofs.Bytes.Slice
import PagedQuery.Proofs.Lexical.Seam

/-!
# Keyword search over bytes

The bytes of a text are searched as the text itself is, with every slice checked. A
byte is folded as the character of its number, which leaves the bytes of characters
outside ASCII as they are, so the folded bytes of a text are the bytes of the folded
text; marks and parentheses are counted byte by byte. An ASCII token is mentioned among
the bytes, or begins them, where it is mentioned in the text or begins it.
-/
namespace PagedQuery

namespace Quote

/-- The byte that closes a quotation. -/
def markByte? (q : Quote) : Option UInt8 := q.mark?.map Char.toUInt8

theorem exists_mark {q : Quote} (h : q ≠ .outside) : ∃ m, q.mark? = some m ∧ m.toNat < 128 := by
  cases q with
  | outside => exact absurd rfl h
  | single => exact ⟨_, rfl, by decide⟩
  | double => exact ⟨_, rfl, by decide⟩
  | back => exact ⟨_, rfl, by decide⟩

theorem step_of_ne {q : Quote} (h : q ≠ .outside) (c : Char) :
    q.step c = if q.mark? = some c then .outside else q := by
  cases q with
  | outside => exact absurd rfl h
  | single => rfl
  | double => rfl
  | back => rfl

end Quote

namespace Bytes

/-- An ASCII white space byte becomes a space, a lower-case ASCII letter upper case. -/
def foldByte (b : UInt8) : UInt8 := (Text.foldChar (Char.ofUInt8 b)).toUInt8

/-- The bytes of a text as keyword search sees them. -/
def folded (t : Text) : List UInt8 := (Text.utf8 t).map foldByte

/-- The bytes from an offset on, unless it lies beyond the last one. -/
def tail? (bytes : List UInt8) (i : Nat) : Option (List UInt8) :=
  if i ≤ bytes.length then some (bytes.drop i) else none

def isMark (b : UInt8) : Bool :=
  b = '\''.toUInt8 || b = '"'.toUInt8 || b = '`'.toUInt8

/-- The first offset, `start` or later, at which the keyword begins outside quotes and
parentheses. The bytes that are left begin at the offset `i` of the whole row. -/
def findFrom? (whole keyword : List UInt8) (start : Nat) (quote : Option UInt8) (depth i : Nat) :
    List UInt8 → Option (Option Nat)
  | [] => some none
  | b :: rest =>
    match quote with
    | some mark =>
      findFrom? whole keyword start (if b = mark then none else some mark) depth (i + 1) rest
    | none =>
      if isMark b then findFrom? whole keyword start (some b) depth (i + 1) rest
      else if b = '('.toUInt8 then findFrom? whole keyword start none (depth + 1) (i + 1) rest
      else if b = ')'.toUInt8 then findFrom? whole keyword start none (depth - 1) (i + 1) rest
      else if depth = 0 ∧ start ≤ i then do
        if keyword.isPrefixOf (← tail? whole i) then some (some i)
        else findFrom? whole keyword start none depth (i + 1) rest
      else findFrom? whole keyword start none depth (i + 1) rest

def find? (keyword : Text) (start : Nat) (t : Text) : Option (Option Nat) :=
  findFrom? (folded t) (Text.utf8 keyword) start none 0 0 (folded t)

def findFirst? (keywords : List Text) (start : Nat) (t : Text) : Option (Option Nat) := do
  let found ← keywords.mapM fun k => find? k start t
  some (found.filterMap id).min?

def hasTopLevel? (keywords : List Text) (start : Nat) (t : Text) : Option Bool :=
  (findFirst? keywords start t).map Option.isSome

def holds (token : List UInt8) : List UInt8 → Bool
  | [] => token.isEmpty
  | b :: rest => token.isPrefixOf (b :: rest) || holds token rest

def mentions (token t : Text) : Bool := !token.isEmpty && holds (Text.utf8 token) (folded t)

/-- The folded bytes begin with the token, leading spaces apart. -/
def startsWith? (token t : Text) : Option Bool := do
  let rest ← tail? (folded t) ((folded t).findIdx (· ≠ ' '.toUInt8))
  some ((Text.utf8 token).isPrefixOf rest)

end Bytes

namespace Text

variable {k t : Text} {c : Char}

theorem toUpper_of_le (h : 128 ≤ c.toNat) : c.toUpper = c := by
  have hletter : ¬('a'.val ≤ c.val ∧ c.val ≤ 'z'.val) := by
    intro hletter
    have : c.toNat ≤ 122 := hletter.2
    omega
  unfold Char.toUpper
  exact dif_neg hletter

theorem toUpper_ascii (h : c.toNat < 128) : c.toUpper.toNat < 128 := by
  rcases toUpper_cases c with hc | hc
  · rwa [hc]
  · omega

theorem utf8Size_upper (t : Text) : utf8Size (upper t) = utf8Size t := by
  induction t with
  | nil => rfl
  | cons c t ih =>
    have hchar : c.toUpper.utf8Size = c.utf8Size := by
      by_cases hc : c.toNat < 128
      · rw [utf8Size_ascii hc, utf8Size_ascii (toUpper_ascii hc)]
      · rw [toUpper_of_le (Nat.le_of_not_lt hc)]
    rw [utf8Size_cons, ← ih, ← hchar]
    rfl

theorem mem_of_not_isPlain (h : ¬isPlain c = true) : c ∈ ['\'', '"', '`', '(', ')'] := by
  by_contra hnot
  exact h (by simpa [isPlain] using hnot)

theorem isPlain_of_le (h : 128 ≤ c.toNat) : isPlain c = true := by
  by_contra hnot
  have hascii : IsAscii ['\'', '"', '`', '(', ')'] := by decide
  have := hascii c (mem_of_not_isPlain hnot)
  omega

theorem foldChar_of_le (h : 128 ≤ c.toNat) : foldChar c = c := by
  have hspace : isAsciiSpace c = false := by
    rw [← Bool.not_eq_true, isAsciiSpace]
    simp only [Bool.or_eq_true, decide_eq_true_eq]
    rintro ((((rfl | rfl) | rfl) | rfl) | rfl) <;> exact absurd h (by decide)
  rw [foldChar, hspace, toUpper_of_le h]
  rfl

theorem foldChar_ascii (h : c.toNat < 128) : (foldChar c).toNat < 128 := by
  unfold foldChar
  split
  · decide
  · exact toUpper_ascii h

theorem foldByte_of_le {b : UInt8} (h : 128 ≤ b.toNat) : Bytes.foldByte b = b := by
  have hchar : foldChar (Char.ofUInt8 b) = Char.ofUInt8 b := foldChar_of_le h
  rw [Bytes.foldByte, hchar, ← UInt8.toNat_inj]
  exact Nat.mod_eq_of_lt b.toNat_lt

theorem foldByte_toUInt8 (h : c.toNat < 128) : Bytes.foldByte c.toUInt8 = (foldChar c).toUInt8 := by
  have hchar : Char.ofUInt8 c.toUInt8 = c := Char.toNat_inj.mp (toNat_toUInt8 h)
  rw [Bytes.foldByte, hchar]

theorem folded_eq (t : Text) : Bytes.folded t = utf8 (fold t) := by
  induction t with
  | nil => rfl
  | cons c t ih =>
    have hchar : (String.utf8EncodeChar c).map Bytes.foldByte
        = String.utf8EncodeChar (foldChar c) := by
      by_cases h : c.toNat < 128
      · rw [utf8EncodeChar_ascii h, utf8EncodeChar_ascii (foldChar_ascii h), List.map_singleton,
          foldByte_toUInt8 h]
      · rw [foldChar_of_le (by omega)]
        refine (List.map_congr_left fun b hb => ?_).trans (List.map_id _)
        exact foldByte_of_le (le_of_mem_utf8EncodeChar (Nat.le_of_not_lt h) hb)
    rw [Bytes.folded] at ih ⊢
    rw [utf8_cons, List.map_append, hchar, ih]
    rfl

/-- Folding keeps sizes, so that offsets in the folded text are offsets in the text. -/
@[simp] theorem utf8Size_fold (t : Text) : utf8Size (fold t) = utf8Size t := by
  rw [← length_utf8, ← length_utf8, ← folded_eq, Bytes.folded, List.length_map]

@[simp] theorem offset_fold (t : Text) (i : Nat) : offset (fold t) i = offset t i := by
  rw [offset, fold_take, utf8Size_fold]; rfl

/-- No ASCII text begins inside another character. -/
theorem holds_append_of_le {bytes : List UInt8} (hc : c.toNat < 128)
    (hbytes : ∀ b ∈ bytes, 128 ≤ b.toNat) (s rest : List UInt8) :
    Bytes.holds (c.toUInt8 :: s) (bytes ++ rest) = Bytes.holds (c.toUInt8 :: s) rest := by
  induction bytes with
  | nil => rfl
  | cons b bytes ih =>
    rw [List.cons_append, Bytes.holds, isPrefixOf_of_le hc (hbytes b (by simp)), Bool.false_or]
    exact ih fun x hx => hbytes x (by simp [hx])

theorem IsAscii.holds_utf8 (hk : IsAscii k) (hne : k ≠ []) (t : Text) :
    Bytes.holds (utf8 k) (utf8 t) = contains k t := by
  obtain ⟨a, s, rfl⟩ := List.exists_cons_of_ne_nil hne
  have ha : a.toNat < 128 := hk a (by simp)
  have hbytes : utf8 (a :: s) = a.toUInt8 :: utf8 s := by
    rw [utf8_cons, utf8EncodeChar_ascii ha, List.singleton_append]
  induction t with
  | nil => simp [hbytes, Bytes.holds, contains]
  | cons c t ih =>
    have hprefix := hk.isPrefixOf_utf8 (c :: t)
    rw [contains, ← hprefix, ← ih, utf8_cons c t]
    by_cases hc : c.toNat < 128
    · rw [utf8EncodeChar_ascii hc, List.singleton_append, Bytes.holds]
    · have hle : ∀ b ∈ String.utf8EncodeChar c, 128 ≤ b.toNat := fun b hb =>
        le_of_mem_utf8EncodeChar (Nat.le_of_not_lt hc) hb
      rw [hbytes, holds_append_of_le ha hle]
      obtain ⟨b, bytes, henc⟩ := List.exists_cons_of_ne_nil String.utf8EncodeChar_ne_nil
      rw [henc, List.cons_append, isPrefixOf_of_le ha (hle b (by simp [henc])), Bool.false_or]

end Text

namespace Bytes

variable {token t : Text}

theorem mentions_eq (hascii : Text.IsAscii token) (hne : token ≠ []) (t : Text) :
    mentions token t = Text.mentions token t := by
  rw [mentions, Text.mentions, Text.folded_eq, hascii.holds_utf8 hne]
  simp [hne]

theorem startsWith?_eq (hascii : Text.IsAscii token) (t : Text) :
    startsWith? token t = some (Text.startsWith token t) := by
  have hdrop : (folded t).drop ((folded t).findIdx (· ≠ ' '.toUInt8))
      = Text.utf8 ((Text.fold t).dropWhile (· = ' ')) := by
    rw [← Text.dropWhile_utf8, Text.folded_eq, List.dropWhile_eq_drop_findIdx_not]
    simp
  have htail : tail? (folded t) ((folded t).findIdx (· ≠ ' '.toUInt8))
      = some (Text.utf8 ((Text.fold t).dropWhile (· = ' '))) := by
    rw [tail?, if_pos List.findIdx_le_length, hdrop]
  rw [startsWith?, htail, Option.bind_eq_bind, Option.bind_some, hascii.isPrefixOf_utf8]
  rfl

theorem mapM_eq_some_map {α β : Type} {f : α → Option β} {g : α → β} {l : List α}
    (h : ∀ a ∈ l, f a = some (g a)) : l.mapM f = some (l.map g) := by
  induction l with
  | nil => rfl
  | cons a l ih =>
    rw [List.mapM_cons, h a List.mem_cons_self, ih fun b hb => h b (List.mem_cons_of_mem a hb)]
    rfl

end Bytes

end PagedQuery
