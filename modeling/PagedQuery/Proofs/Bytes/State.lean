import PagedQuery.Proofs.Bytes.Search

/-!
# The state before a byte

Reading the bytes of a text one by one gives before each of them the quotation mark that
is open and the number of open parentheses. The bytes of a character outside ASCII change
neither, and folding a byte changes nothing in what it does. So before the first byte of
a character the state is the place of the character in the text.
-/
namespace PagedQuery

namespace Text

/-- A character that is neither letter nor white space comes from no other byte. -/
theorem foldByte_eq_iff {m : Char} (hascii : m.toNat < 128) (hspace : isAsciiSpace m = false)
    (hm : m.toNat < 65 ∨ 90 < m.toNat ∧ m.toUpper = m) (b : UInt8) :
    Bytes.foldByte b = m.toUInt8 ↔ b = m.toUInt8 := by
  by_cases hb : b.toNat < 128
  · have hc : (Char.ofUInt8 b).toNat < 128 := hb
    have hchar : (Char.ofUInt8 b).toUInt8 = b := UInt8.toNat_inj.mp (Nat.mod_eq_of_lt b.toNat_lt)
    rw [Bytes.foldByte, toUInt8_inj (foldChar_ascii hc) hascii, foldChar_eq_iff hspace hm,
      ← toUInt8_inj hc hascii, hchar]
  · rw [foldByte_of_le (Nat.le_of_not_lt hb)]

end Text

namespace Bytes

def isPlain (b : UInt8) : Bool := !isMark b && b ≠ '('.toUInt8 && b ≠ ')'.toUInt8

theorem isPlain_iff {b : UInt8} :
    isPlain b = true ↔ isMark b = false ∧ b ≠ '('.toUInt8 ∧ b ≠ ')'.toUInt8 := by
  simp [isPlain, and_assoc]

/-- The open quotation mark, if any, and the number of open parentheses before a byte. -/
structure State where
  mark : Option UInt8 := none
  depth : Nat := 0
  deriving DecidableEq, Repr

namespace State

/-- A mark opens a quotation and closes its own; outside quotes, parentheses change the depth. -/
def step (s : State) (b : UInt8) : State :=
  match s.mark with
  | some mark => { s with mark := if b = mark then none else some mark }
  | none =>
    if isMark b then { s with mark := some b }
    else if b = '('.toUInt8 then { s with depth := s.depth + 1 }
    else if b = ')'.toUInt8 then { s with depth := s.depth - 1 }
    else s

def after (s : State) (bytes : List UInt8) : State := bytes.foldl step s

/-- The state that a place is for the bytes. -/
def ofPlace (p : Place) : State := { mark := p.quote.markByte?, depth := p.depth }

@[simp] theorem after_nil (s : State) : s.after [] = s := rfl

@[simp] theorem after_cons (s : State) (b : UInt8) (bytes : List UInt8) :
    s.after (b :: bytes) = (s.step b).after bytes := rfl

theorem after_append (s : State) (front rest : List UInt8) :
    s.after (front ++ rest) = (s.after front).after rest := List.foldl_append

theorem after_of_forall_mem {s : State} {bytes : List UInt8} (h : ∀ b ∈ bytes, s.step b = s) :
    s.after bytes = s := by
  induction bytes with
  | nil => rfl
  | cons b bytes ih =>
    rw [after_cons, h b List.mem_cons_self]
    exact ih fun x hx => h x (List.mem_cons_of_mem b hx)

theorem step_of_isPlain {s : State} {b : UInt8} (hs : s.mark = none) (hb : isPlain b = true) :
    s.step b = s := by
  obtain ⟨hmark, hopen, hclose⟩ := isPlain_iff.mp hb
  simp [step, hs, hmark, hopen, hclose]

/-- An ASCII character does to the state what it does to the place. -/
theorem step_ofPlace {c : Char} (hc : c.toNat < 128) (p : Place) :
    (ofPlace p).step c.toUInt8 = ofPlace (p.step c) := by
  have heq : ∀ m : Char, m.toNat < 128 → (c.toUInt8 = m.toUInt8 ↔ c = m) := fun m hm =>
    Text.toUInt8_inj hc hm
  by_cases hq : p.quote = .outside
  · have hnone : (ofPlace p).mark = none := by rw [ofPlace, hq]; rfl
    by_cases hplain : Text.isPlain c = true
    · have hm : c ∉ ['\'', '"', '`', '(', ')'] := by simpa [Text.isPlain] using hplain
      simp only [List.mem_cons, List.not_mem_nil, or_false, not_or] at hm
      rw [Place.step_of_isPlain hplain]
      exact step_of_isPlain hnone (by simp [isPlain, isMark, heq, hm])
    · obtain ⟨q, depth⟩ := p
      cases hq
      have hm := Text.mem_of_not_isPlain hplain
      simp only [List.mem_cons, List.not_mem_nil, or_false] at hm
      rcases hm with rfl | rfl | rfl | rfl | rfl <;> rfl
  · obtain ⟨m, hmark, hm⟩ := Quote.exists_mark hq
    have hbyte : p.quote.markByte? = some m.toUInt8 := by rw [Quote.markByte?, hmark]; rfl
    simp only [ofPlace, step, hbyte, Place.step, Quote.step_of_ne hq, hmark, hq, heq m hm,
      Option.some.injEq, eq_comm (a := m), if_false, State.mk.injEq, and_true]
    split
    · rfl
    · exact hbyte.symm

/-- A byte of another character changes nothing. -/
theorem step_of_le {b : UInt8} (hb : 128 ≤ b.toNat) (p : Place) :
    (ofPlace p).step b = ofPlace p := by
  have hne : ∀ m : Char, m.toNat < 128 → b ≠ m.toUInt8 := by
    intro m hm h
    rw [h, Text.toNat_toUInt8 hm] at hb
    omega
  by_cases hq : p.quote = .outside
  · apply step_of_isPlain (by rw [ofPlace, hq]; rfl)
    simp [isPlain, isMark, hne '\'' (by decide), hne '"' (by decide), hne '`' (by decide),
      hne '(' (by decide), hne ')' (by decide)]
  · obtain ⟨m, hmark, hm⟩ := Quote.exists_mark hq
    simp [ofPlace, step, Quote.markByte?, hmark, hne m hm]

/-- Behind the bytes of a text the state is the place behind the text. -/
theorem after_utf8 (p : Place) (t : Text) : (ofPlace p).after (Text.utf8 t) = ofPlace (p.after t) := by
  induction t generalizing p with
  | nil => rfl
  | cons c t ih =>
    have hchar : (ofPlace p).after (String.utf8EncodeChar c) = ofPlace (p.step c) := by
      by_cases hc : c.toNat < 128
      · rw [Text.utf8EncodeChar_ascii hc, after_cons, step_ofPlace hc, after_nil]
      · have hle := Nat.le_of_not_lt hc
        rw [Place.step_of_isPlain (Text.isPlain_of_le hle)]
        exact after_of_forall_mem fun b hb => step_of_le (Text.le_of_mem_utf8EncodeChar hle hb) p
    rw [Text.utf8_cons, after_append, hchar, ih, Place.after_cons]

/-- What is open is a quotation mark. -/
def Lexical (s : State) : Prop := ∀ mark, s.mark = some mark → isMark mark = true

theorem Lexical.step {s : State} (h : s.Lexical) (b : UInt8) : (s.step b).Lexical := by
  intro mark hmark
  cases hs : s.mark with
  | some m =>
    simp only [State.step, hs] at hmark
    split at hmark
    · exact absurd hmark (by simp)
    · exact h mark (hs.trans hmark)
  | none =>
    simp only [State.step, hs] at hmark
    split at hmark
    · rename_i hb
      exact Option.some.inj hmark ▸ hb
    · split at hmark
      · exact absurd hmark (by simp)
      · split at hmark
        · exact absurd hmark (by simp)
        · exact h mark hmark

/-- Folding changes no mark and no parenthesis, and makes none. -/
theorem step_foldByte {s : State} (h : s.Lexical) (b : UInt8) : s.step (foldByte b) = s.step b := by
  have hopen := Text.foldByte_eq_iff (m := '(') (by decide) (by decide) (by decide) b
  have hclose := Text.foldByte_eq_iff (m := ')') (by decide) (by decide) (by decide) b
  have hsingle := Text.foldByte_eq_iff (m := '\'') (by decide) (by decide) (by decide) b
  have hdouble := Text.foldByte_eq_iff (m := '"') (by decide) (by decide) (by decide) b
  have hback := Text.foldByte_eq_iff (m := '`') (by decide) (by decide) (by decide) b
  have hmark : isMark (foldByte b) = isMark b := by
    simp only [isMark, hsingle, hdouble, hback]
  cases hs : s.mark with
  | some m =>
    have hm := h m hs
    simp only [isMark, Bool.or_eq_true, decide_eq_true_eq] at hm
    rcases hm with (rfl | rfl) | rfl
    · simp only [step, hs, hsingle]
    · simp only [step, hs, hdouble]
    · simp only [step, hs, hback]
  | none =>
    simp only [step, hs, hmark, hopen, hclose]
    split
    · rename_i hb
      simp only [isMark, Bool.or_eq_true, decide_eq_true_eq] at hb
      rcases hb with (rfl | rfl) | rfl <;> rfl
    · rfl

theorem Lexical.after_folded {s : State} (h : s.Lexical) (bytes : List UInt8) :
    s.after (bytes.map foldByte) = s.after bytes := by
  induction bytes generalizing s with
  | nil => rfl
  | cons b bytes ih => rw [List.map_cons, after_cons, after_cons, step_foldByte h, ih (h.step b)]

end State

/-- The state before the byte at an offset of the text. -/
def stateAt (t : Text) (i : ℕ) : State := State.after {} ((Text.utf8 t).take i)

/-- It is also the state before that byte of the folded text. -/
theorem after_take_folded (t : Text) (i : ℕ) :
    State.after {} ((folded t).take i) = stateAt t i := by
  have hstart : State.Lexical {} := fun mark hmark => absurd hmark (by simp)
  rw [folded, ← List.map_take]
  exact hstart.after_folded _

theorem stateAt_of_cut? {s t u : Text} {i : ℕ} (h : Text.cut? t i = some (s, u)) :
    stateAt t i = State.ofPlace (Place.after .start s) := by
  rw [stateAt, (Text.utf8_take_of_cut? h).1]
  exact State.after_utf8 .start s

theorem stateAt_offset (t : Text) (i : ℕ) :
    stateAt t (Text.offset t i) = State.ofPlace (Place.after .start (t.take i)) :=
  stateAt_of_cut? (Text.cut?_offset t i)

theorem ofPlace_eq_iff (p : Place) : State.ofPlace p = {} ↔ p = .start := by
  obtain ⟨q, depth⟩ := p
  cases q <;> simp [State.ofPlace, Quote.markByte?, Quote.mark?, Place.start]

end Bytes

end PagedQuery
