import PagedQuery.Literal
import PagedQuery.Proofs.Numbering

/-!
# What literals show

A text shows the characters that stand in it outside quotes. A literal shows its own
quotation marks, or else the letters, digits, points and signs of a number or a keyword.
So it closes its quotes, opens no parenthesis, has no placeholder and no number of one,
and no keyword begins in it. Its text is what is left when the marks are taken off and
doubled marks are halved.
-/
namespace PagedQuery

namespace Quote

/-- The character stands outside quotes in a text that is read from the state `q`. -/
def Shows (q : Quote) (t : Text) (c : Char) : Prop :=
  ∃ s u, t = s ++ c :: u ∧ q.after s = .outside

variable {q : Quote} {s t : Text} {c d : Char}

theorem not_shows_nil : ¬Shows q [] c := by
  rintro ⟨s, u, he, -⟩
  exact absurd he (by simp)

theorem shows_cons : Shows q (d :: t) c ↔ q = .outside ∧ c = d ∨ Shows (q.step d) t c := by
  constructor
  · rintro ⟨s, u, he, hquote⟩
    cases s with
    | nil => exact .inl ⟨hquote, (List.cons.inj he).1.symm⟩
    | cons e s =>
      obtain ⟨rfl, rfl⟩ := List.cons.inj he
      exact .inr ⟨s, u, rfl, hquote⟩
  · rintro (⟨rfl, rfl⟩ | ⟨s, u, rfl, hquote⟩)
    · exact ⟨[], t, rfl, rfl⟩
    · exact ⟨d :: s, u, rfl, hquote⟩

theorem shows_append : Shows q (s ++ t) c ↔ Shows q s c ∨ Shows (q.after s) t c := by
  induction s generalizing q with
  | nil => exact (or_iff_right not_shows_nil).symm
  | cons d s ih => rw [List.cons_append, shows_cons, shows_cons, ih, after_cons, or_assoc]

theorem Shows.mem (h : Shows q t c) : c ∈ t := by
  obtain ⟨s, u, rfl, -⟩ := h
  exact List.mem_append_right _ List.mem_cons_self

end Quote

namespace Place

variable {p : Place} {t : Text}

theorem after_of_not_shows (h : ∀ c ∈ ['(', ')'], ¬p.quote.Shows t c) :
    p.after t = ⟨p.quote.after t, p.depth⟩ ∧ Balanced p t := by
  induction t generalizing p with
  | nil => exact ⟨rfl, trivial⟩
  | cons d t ih =>
    have hhere : p.quote = .outside → d ≠ '(' ∧ d ≠ ')' := fun hq =>
      ⟨fun hd => h '(' (by decide) (Quote.shows_cons.mpr (.inl ⟨hq, hd.symm⟩)),
        fun hd => h ')' (by decide) (Quote.shows_cons.mpr (.inl ⟨hq, hd.symm⟩))⟩
    have hdepth : (p.step d).depth = p.depth := by
      simp only [step]
      split
      · rename_i hq
        rw [depthAfter, if_neg (hhere hq).1, if_neg (hhere hq).2]
      · rfl
    obtain ⟨hafter, hbalanced⟩ := ih (p := p.step d) fun c hc hshows =>
      h c hc (Quote.shows_cons.mpr (.inr hshows))
    refine ⟨?_, fun hboth => (hhere hboth.1).2 hboth.2.2, hbalanced⟩
    rw [after_cons, hafter, hdepth]
    rfl

theorem closed_of_not_shows (hquote : Quote.Closed t)
    (h : ∀ c ∈ ['(', ')'], ¬Quote.Shows .outside t c) : Closed t := by
  obtain ⟨hafter, hbalanced⟩ := after_of_not_shows (p := start) h
  refine ⟨hafter.trans ?_, hbalanced⟩
  rw [show start.quote.after t = .outside from hquote]
  rfl

end Place

namespace Placeholder

variable {q : Quote} {t : Text}

theorem countFrom_of_not_shows (h : ¬q.Shows t '?') : countFrom q t = 0 := by
  induction t generalizing q with
  | nil => rfl
  | cons d t ih =>
    rw [Quote.shows_cons, not_or] at h
    rw [countFrom, ih h.2, if_neg fun hd => h.1 ⟨hd.1, hd.2.symm⟩]

theorem highestFrom_of_not_shows {marker : Text} (hm : marker ∈ markers)
    (h : ∀ c ∈ marker.head?, ¬q.Shows t c) : highestFrom marker q t = 0 := by
  induction t generalizing q with
  | nil => rfl
  | cons d t ih =>
    have hrest := ih fun c hc hshows => h c hc (Quote.shows_cons.mpr (.inr hshows))
    rw [highestFrom, hrest]
    split
    · rename_i hq
      have htoken : leadingToken? marker (d :: t) = none := by
        refine if_neg fun hprefix => ?_
        have hne : ∀ m ∈ markers, m ≠ [] := by decide
        obtain ⟨c, rest, rfl⟩ := List.exists_cons_of_ne_nil (hne marker hm)
        have hcd := (List.cons_prefix_cons.mp (List.isPrefixOf_iff_prefix.mp hprefix)).1
        exact h c rfl (Quote.shows_cons.mpr (.inl ⟨hq, hcd⟩))
      rw [htoken]
      rfl
    · rfl

theorem highest_of_not_shows (h : ∀ c ∈ ['$', '@', ':'], ¬Quote.Shows .outside t c)
    (style : PlaceholderStyle) : highest style t = 0 := by
  unfold highest
  split
  · rfl
  · rename_i marker hmarker
    have hmem := mem_markers hmarker
    have hheads : ∀ m ∈ markers, m.head? ∈ [some '$', some '@', some ':'] := by decide
    refine highestFrom_of_not_shows hmem fun c hc => h c ?_
    have hhead := hheads marker hmem
    rw [show marker.head? = some c from hc] at hhead
    simpa using hhead

end Placeholder

namespace Number

def isNumeral (c : Char) : Bool := c.isDigit || ['-', '+', '.', 'e'].contains c

theorem isNumeral_of_isDigit {c : Char} (h : c.isDigit = true) : isNumeral c = true := by
  rw [isNumeral, h, Bool.true_or]

theorem isNumeral_ofNat (n : Nat) : (Text.ofNat n).all isNumeral = true :=
  List.all_eq_true.mpr fun _ hc =>
    isNumeral_of_isDigit (Nat.isDigit_of_mem_toDigits (by decide) (by decide) hc)

theorem isNumeral_ofInt (n : Int) : (Text.ofInt n).all isNumeral = true := by
  cases n with
  | ofNat n => exact isNumeral_ofNat n
  | negSucc n =>
    rw [Text.ofInt, List.all_cons, isNumeral_ofNat]
    decide

theorem isNumeral_replicate (n : Nat) : (List.replicate n '0').all isNumeral = true :=
  List.all_eq_true.mpr fun c hc => by
    rw [List.eq_of_mem_replicate hc]
    decide

theorem isNumeral_placePoint {digits whole : Text} (hdigits : digits.all isNumeral = true)
    (hwhole : whole.all isNumeral = true) (n : Nat) :
    (placePoint digits n whole).all isNumeral = true := by
  unfold placePoint
  split
  · rw [List.all_append, List.all_append, hdigits, isNumeral_replicate, hwhole]
    rfl
  · rw [List.all_append, List.all_cons, Bool.and_eq_true, Bool.and_eq_true]
    rw [List.all_eq_true] at hdigits
    exact ⟨List.all_eq_true.mpr fun c hc => hdigits c (List.mem_of_mem_take hc), by decide,
      List.all_eq_true.mpr fun c hc => hdigits c (List.mem_of_mem_drop hc)⟩

theorem isNumeral_render {digits : Text} (hdigits : digits.all isNumeral = true) (power : Int) :
    (doubleLayout.render digits power).all isNumeral = true := by
  unfold Layout.render
  split
  · split
    · exact isNumeral_placePoint hdigits (by decide) _
    · rw [List.all_append, List.all_append, hdigits, isNumeral_replicate]
      decide
  · simp only
    rw [List.all_append, List.all_append, Bool.and_eq_true, Bool.and_eq_true]
    refine ⟨⟨?_, by decide⟩, ?_⟩
    · split
      · exact hdigits
      · exact isNumeral_placePoint hdigits (by decide) _
    · split
      · rw [List.all_append, isNumeral_ofNat]
        decide
      · exact isNumeral_ofInt power

theorem isNumeral_text (n : Number) : n.text.all isNumeral = true := by
  cases n with
  | integer value fits => exact isNumeral_ofInt value
  | double x =>
    rw [text]
    unfold doubleText
    simp only
    rw [List.all_append, Bool.and_eq_true]
    constructor
    · split <;> decide
    · refine isNumeral_render ?_ _
      split
      · decide
      · have hdigits := List.all_eq_true.mp (isNumeral_ofNat x.shortest.coefficient)
        exact List.all_eq_true.mpr fun c hc =>
          hdigits c ((Text.trimEndBy_prefix _ _).subset hc)

end Number

namespace Literal

variable {t u : Text} {c : Char}

/-- The text with every doubled single quote halved. -/
def halveQuotes : Text → Text
  | '\'' :: '\'' :: t => '\'' :: halveQuotes t
  | c :: t => c :: halveQuotes t
  | [] => []

/-- The text that a literal quotes. -/
def unquote (literal : Text) : Text := halveQuotes literal.tail.dropLast

/-- Read on its own the literal ends outside quotes, and meets there no placeholder, parenthesis,
white space or mark of an identifier. -/
structure Sealed (literal : Text) : Prop where
  closed : Quote.Closed literal
  bare : ∀ c, Quote.Shows .outside literal c →
    c ∉ ['?', '(', ')', '"', '`'] ∧ Text.isBlank c = false

/-- The characters that a literal shows. -/
def isShown (c : Char) : Bool := c = '\'' || c.isUpper || Number.isNumeral c

theorem halveQuotes_doubleQuotes (t : Text) : halveQuotes (doubleQuotes t) = t := by
  induction t with
  | nil => rfl
  | cons c t ih =>
    rw [doubleQuotes]
    split
    · rename_i hc
      rw [halveQuotes, ih, hc]
    · rename_i hc
      rw [halveQuotes, ih]
      exact fun _ he => absurd he hc

theorem unquote_quote (t : Text) : unquote (quote t) = t := by
  rw [unquote, quote, List.cons_append, List.tail_cons, List.dropLast_concat,
    halveQuotes_doubleQuotes]

theorem quote_injective : Function.Injective quote :=
  Function.LeftInverse.injective unquote_quote

/-- Within quotes a text is read to the end of the literal. -/
theorem after_doubleQuotes (t : Text) : Quote.after .single (doubleQuotes t) = .single := by
  induction t with
  | nil => rfl
  | cons c t ih =>
    rw [doubleQuotes]
    split
    · exact ih
    · rename_i hc
      have hstep : Quote.step .single c = .single := if_neg fun he => hc (Option.some.inj he).symm
      rw [Quote.after_cons, hstep, ih]

/-- Within quotes a text shows nothing but marks. -/
theorem eq_of_shows_doubleQuotes (h : Quote.Shows .single (doubleQuotes t) c) : c = '\'' := by
  induction t with
  | nil => exact absurd h Quote.not_shows_nil
  | cons d t ih =>
    rw [doubleQuotes] at h
    split at h
    · rw [Quote.shows_cons, Quote.shows_cons] at h
      rcases h with ⟨he, -⟩ | ⟨-, hc⟩ | h
      · exact absurd he (by decide)
      · exact hc
      · exact ih h
    · rename_i hd
      have hstep : Quote.step .single d = .single := if_neg fun he => hd (Option.some.inj he).symm
      rw [Quote.shows_cons, hstep] at h
      rcases h with ⟨he, -⟩ | h
      · exact absurd he (by decide)
      · exact ih h

theorem closed_quote (t : Text) : Quote.Closed (quote t) := by
  have hopen : Quote.step .outside '\'' = .single := rfl
  rw [Quote.Closed, quote, List.cons_append, Quote.after_cons, Quote.after_append, hopen,
    after_doubleQuotes]
  rfl

theorem eq_of_shows_quote (h : Quote.Shows .outside (quote t) c) : c = '\'' := by
  have hopen : Quote.step .outside '\'' = .single := rfl
  rw [quote, List.cons_append, Quote.shows_cons, Quote.shows_append, hopen,
    after_doubleQuotes] at h
  rcases h with ⟨-, hc⟩ | h | h
  · exact hc
  · exact eq_of_shows_doubleQuotes h
  · exact List.mem_singleton.mp h.mem

theorem isPlain_of_isNumeral {c : Char} (h : Number.isNumeral c = true) : Text.isPlain c = true := by
  rw [Number.isNumeral, Bool.or_eq_true] at h
  rcases h with h | h
  · exact Text.isPlain_of_isDigit h
  · have hall : ['-', '+', '.', 'e'].all Text.isPlain = true := by decide
    exact List.all_eq_true.mp hall c (List.contains_iff_mem.mp h)

theorem render_cases (v : Value) : (∃ t, render v = quote t) ∨
    (render v).all Number.isNumeral = true ∨
    render v ∈ ["TRUE".toList, "FALSE".toList, "NULL".toList] := by
  cases v with
  | null => exact .inr (.inr (by decide))
  | bool b => cases b <;> exact .inr (.inr (by decide))
  | number n => exact .inr (.inl n.isNumeral_text)
  | text t => exact .inl ⟨t, rfl⟩
  | array items => exact .inl ⟨_, rfl⟩
  | object fields => exact .inl ⟨_, rfl⟩

theorem closed_render (v : Value) : Quote.Closed (render v) := by
  rcases render_cases v with ⟨t, ht⟩ | hnumeral | hword
  · exact ht ▸ closed_quote t
  · refine (Place.closed_of_isPlain (List.all_eq_true.mpr fun c hc => ?_)).quote
    exact isPlain_of_isNumeral (List.all_eq_true.mp hnumeral c hc)
  · have hclosed : ∀ w ∈ ["TRUE".toList, "FALSE".toList, "NULL".toList], Quote.Closed w := by
      decide
    exact hclosed _ hword

theorem isShown_of_shows {v : Value} (h : Quote.Shows .outside (render v) c) :
    isShown c = true := by
  rcases render_cases v with ⟨t, ht⟩ | hnumeral | hword
  · rw [ht] at h
    rw [eq_of_shows_quote h]
    decide
  · rw [isShown, List.all_eq_true.mp hnumeral c h.mem, Bool.or_true]
  · have hupper : ∀ w ∈ ["TRUE".toList, "FALSE".toList, "NULL".toList],
        w.all Char.isUpper = true := by decide
    rw [isShown, List.all_eq_true.mp (hupper _ hword) c h.mem, Bool.or_true, Bool.true_or]

theorem toNat_of_isShown {c : Char} (h : isShown c = true) : 33 ≤ c.toNat ∧ c.toNat ≤ 122 := by
  rw [isShown, Number.isNumeral, Bool.or_eq_true, Bool.or_eq_true, Bool.or_eq_true,
    decide_eq_true_eq] at h
  rcases h with (rfl | hupper) | hdigit | hsign
  · decide
  · have hrange : 65 ≤ c.toNat ∧ c.toNat ≤ 90 := of_decide_eq_true hupper
    omega
  · have hrange := Text.toNat_of_isDigit hdigit
    omega
  · have hall : ['-', '+', '.', 'e'].all (fun c => 33 ≤ c.toNat ∧ c.toNat ≤ 122) = true := by decide
    exact of_decide_eq_true (List.all_eq_true.mp hall c (List.contains_iff_mem.mp hsign))

theorem isBlank_of_isShown {c : Char} (h : isShown c = true) : Text.isBlank c = false := by
  refine Bool.eq_false_iff.mpr fun hblank => ?_
  have hrange := toNat_of_isShown h
  have hblanks : ∀ r ∈ Text.blankRanges, r.2 < 33 ∨ 122 < r.1 := by decide
  obtain ⟨r, hr, hrc⟩ := List.any_eq_true.mp hblank
  rw [Bool.and_eq_true, decide_eq_true_eq, decide_eq_true_eq] at hrc
  have := hblanks r hr
  omega

theorem not_shows {v : Value} {c : Char} (hc : c ∈ ['?', '(', ')', '"', '`', '$', '@', ':']) :
    ¬Quote.Shows .outside (render v) c := by
  intro h
  have hnone : ['?', '(', ')', '"', '`', '$', '@', ':'].all (!isShown ·) = true := by decide
  have hnot := List.all_eq_true.mp hnone c hc
  rw [isShown_of_shows h] at hnot
  exact absurd hnot (by decide)

theorem sealed_render (v : Value) : Sealed (render v) where
  closed := closed_render v
  bare c hc := ⟨fun hmem => not_shows ((by decide : ['?', '(', ')', '"', '`'] ⊆
    ['?', '(', ')', '"', '`', '$', '@', ':']) hmem) hc, isBlank_of_isShown (isShown_of_shows hc)⟩

end Literal

end PagedQuery
