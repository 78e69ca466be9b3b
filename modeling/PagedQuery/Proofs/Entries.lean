import PagedQuery.Proofs.Lexical.Word
import PagedQuery.Proofs.Statement.Limits
import PagedQuery.Proofs.Substitution
import PagedQuery.Proofs.Trace.Shared

/-!
# Order entries

An entry of the order is trimmed, loses an `ORDER BY` with a plain space behind each of its
words, and is trimmed again. Trimming eats the space behind a lone `ORDER BY` first, no
other white space will do in its place, and a second `ORDER BY` stays. What is left is all
that a plan shows of an entry.
-/
namespace PagedQuery

namespace Text

/-- A word that begins `s ++ u` but not `s` is cut off by the end of `s` and goes on in `u`, and its
next two characters tell. -/
theorem not_begins_append {k s u : Text} (hs : ¬k <+: s)
    (hu : ∀ n < k.length, s = k.take n → ¬(k.drop n).take 2 <+: u.take 2) : ¬k <+: s ++ u := by
  intro h
  rcases prefix_append_cases h with hin | ⟨hshort, htake, v, hv⟩
  · exact hs hin
  · refine hu _ hshort htake.symm ?_
    rw [← hv, List.take_append]
    exact List.prefix_append _ _

theorem isBlank_toUpper (c : Char) : isBlank c.toUpper = isBlank c := by
  have hletter : ∀ n < 123, 65 ≤ n → (blankRanges.any fun r => r.1 ≤ n && n ≤ r.2) = false := by
    decide
  by_cases h : 'a'.val ≤ c.val ∧ c.val ≤ 'z'.val
  · have hlow : 97 ≤ c.toNat := h.1
    have hhigh : c.toNat ≤ 122 := h.2
    rcases toUpper_cases c with hc | ⟨hA, hZ⟩
    · rw [hc]
    · rw [isBlank, isBlank, hletter _ (by omega) hA, hletter _ (by omega) (by omega)]
  · have hself : c.toUpper = c := by
      unfold Char.toUpper
      exact dif_neg h
    rw [hself]

theorem toUpper_of_isAsciiSpace {c : Char} (h : isAsciiSpace c = true) : c.toUpper = c := by
  simp only [isAsciiSpace, Bool.or_eq_true, decide_eq_true_eq] at h
  rcases h with (((rfl | rfl) | rfl) | rfl) | rfl <;> rfl

theorem trimEnd_ne_nil {t : Text} (h : trim t ≠ []) : trimEnd t ≠ [] := by
  intro hnil
  rw [← trim_trimEnd, hnil] at h
  exact h rfl

end Text

namespace Request

variable {r : Request} {entry key t u word w f : Text}

/-- The text begins with `ORDER BY`, in letters of either case and with plain spaces. -/
def HasPrefix (t : Text) : Prop := orderByPrefix <+: Text.upper t

instance (t : Text) : Decidable (HasPrefix t) := inferInstanceAs (Decidable (_ <+: _))

/-- With spaces around it the text begins with `ORDER BY` for a keyword search. -/
def BeginsOrder (t : Text) : Prop :=
  Text.topLevel? Keyword.orderBy 0 (' ' :: (t ++ [' '])) = some 0

instance (t : Text) : Decidable (BeginsOrder t) := inferInstanceAs (Decidable (_ = _))

theorem beginsOrder_iff : BeginsOrder t ↔ orderByPrefix <+: Text.fold t ++ [' '] := by
  have hfold : Text.fold (' ' :: (t ++ [' '])) = ' ' :: (Text.fold t ++ [' ']) := by
    rw [← List.singleton_append, Text.fold_append, Text.fold_append]
    rfl
  have hkeyword : Keyword.orderBy = ' ' :: orderByPrefix := rfl
  rw [BeginsOrder, Text.topLevel?_eq_some_iff, Text.Occurs, hfold, List.drop_zero, hkeyword,
    List.prefix_cons_inj]
  exact ⟨fun h => h.1.2.2, fun h => ⟨⟨Nat.succ_pos _, rfl, h⟩, Nat.zero_le 0, by omega⟩⟩

theorem dropOrderBy_eq (t : Text) :
    dropOrderBy t = if HasPrefix t then t.drop orderByPrefix.length else t := by
  have hiff : HasPrefix t ↔ Text.upper (t.take orderByPrefix.length) = orderByPrefix := by
    rw [HasPrefix, List.prefix_iff_eq_take, Text.upper, Text.upper, List.map_take, eq_comm]
  rw [dropOrderBy, ← if_congr hiff rfl rfl]

theorem orderKeys_of_hasPrefix (h : HasPrefix (Text.trim entry)) :
    orderKeys entry = Text.trim ((Text.trim entry).drop orderByPrefix.length) := by
  rw [orderKeys, dropOrderBy_eq, if_pos h]

theorem orderKeys_of_not_hasPrefix (h : ¬HasPrefix (Text.trim entry)) :
    orderKeys entry = Text.trim entry := by
  rw [orderKeys, dropOrderBy_eq, if_neg h, Text.trim_trim]

theorem trim_orderKeys (entry : Text) : Text.trim (orderKeys entry) = orderKeys entry :=
  Text.trim_trim _

theorem orderKeys_of_blank (h : Text.trim entry = []) : orderKeys entry = [] := by
  rw [orderKeys_of_not_hasPrefix (by rw [h]; decide), h]

theorem length_orderKeys_le (entry : Text) : (orderKeys entry).length ≤ (Text.trim entry).length := by
  rw [orderKeys, dropOrderBy_eq]
  refine (Text.trim_length_le _).trans ?_
  split
  · rw [List.length_drop]
    exact Nat.sub_le _ _
  · exact Nat.le_refl _

/-- An entry without the prefix is left as it is, and no other is. -/
theorem orderKeys_eq_trim_iff : orderKeys entry = Text.trim entry ↔ ¬HasPrefix (Text.trim entry) := by
  refine ⟨fun heq h => ?_, orderKeys_of_not_hasPrefix⟩
  have hlong : orderByPrefix.length ≤ (Text.upper (Text.trim entry)).length := h.length_le
  have hshort := Text.trim_length_le ((Text.trim entry).drop orderByPrefix.length)
  have hpositive : 0 < orderByPrefix.length := by decide
  rw [← orderKeys_of_hasPrefix h, heq, List.length_drop] at hshort
  rw [Text.upper_length] at hlong
  omega

/-- Words of an `ORDER BY` in letters of either case. -/
def IsOrderBy (word : Text) : Prop := Text.upper word = "ORDER BY".toList

theorem IsOrderBy.length_eq (h : IsOrderBy word) : word.length = 8 := by
  rw [← Text.upper_length, h]
  rfl

theorem IsOrderBy.trim_eq (h : IsOrderBy word) : Text.trim word = word := by
  have hnonblank : ∀ c, c.toUpper = 'O' ∨ c.toUpper = 'Y' → Text.isBlank c = false := by
    rintro c (hc | hc) <;> rw [← Text.isBlank_toUpper, hc] <;> decide
  refine Text.trim_eq_self_iff.mpr ⟨fun c hc => ?_, fun c hc => ?_⟩
  · have hhead : (Text.upper word).head? = some c.toUpper := by
      rw [Text.upper, List.head?_map, hc, Option.map_some]
    rw [h] at hhead
    exact hnonblank c (.inl (Option.some.inj hhead).symm)
  · have hlast : (Text.upper word).getLast? = some c.toUpper := by
      rw [Text.upper, List.getLast?_map, hc, Option.map_some]
    rw [h] at hlast
    exact hnonblank c (.inr (Option.some.inj hlast).symm)

theorem IsOrderBy.ne_nil (h : IsOrderBy word) : word ≠ [] := by
  rintro rfl
  exact absurd h.length_eq (by decide)

theorem IsOrderBy.hasPrefix_append_iff (h : IsOrderBy word) (t : Text) :
    HasPrefix (word ++ t) ↔ t.head?.map Char.toUpper = some ' ' := by
  have hsplit : orderByPrefix = "ORDER BY".toList ++ [' '] := rfl
  rw [HasPrefix, Text.upper_append, h, hsplit, List.prefix_append_right_inj]
  cases t with
  | nil => simp [Text.upper]
  | cons c t => simp [Text.upper, eq_comm]

theorem IsOrderBy.trim_append (hword : IsOrderBy word) (w : Text) (hf : Text.trim f ≠ []) :
    Text.trim (word ++ w ++ f) = word ++ (w ++ Text.trimEnd f) := by
  have hend := Text.trimEnd_append w (Text.trimEnd_ne_nil hf)
  have hne : Text.trimEnd (w ++ f) ≠ [] := by
    rw [hend]
    exact List.append_ne_nil_of_right_ne_nil w (Text.trimEnd_ne_nil hf)
  rw [List.append_assoc, Text.trim_append (by rw [hword.trim_eq]; exact hword.ne_nil) hne
    (Text.trimEnd_of_trim hword.trim_eq), hword.trim_eq, hend]

/-- A plain space behind the words is taken off with them and shows the key, any other white space
keeps the words. -/
theorem orderKeys_word (hword : IsOrderBy word) (hw : w ≠ [])
    (hspace : w.all Text.isAsciiSpace = true) (hf : Text.trim f ≠ []) :
    orderKeys (word ++ w ++ f) =
      if w.head? = some ' ' then Text.trim f else word ++ (w ++ Text.trimEnd f) := by
  have htrim := hword.trim_append w hf
  obtain ⟨c, v, rfl⟩ := List.exists_cons_of_ne_nil hw
  obtain ⟨hc, hv⟩ := List.all_cons.symm.trans hspace |> Bool.and_eq_true_iff.mp
  have htaken : HasPrefix (word ++ (c :: v ++ Text.trimEnd f)) ↔ (c :: v).head? = some ' ' := by
    rw [hword.hasPrefix_append_iff, List.cons_append, List.head?_cons, Option.map_some,
      Text.toUpper_of_isAsciiSpace hc, List.head?_cons]
  split
  · rename_i hplain
    have hblank : v.all Text.isBlank = true := List.all_eq_true.mpr fun d hd =>
      Text.isBlank_of_isAsciiSpace (List.all_eq_true.mp hv d hd)
    have hdrop : (word ++ (c :: v ++ Text.trimEnd f)).drop orderByPrefix.length =
        v ++ Text.trimEnd f := by
      rw [List.drop_append, hword.length_eq, List.drop_of_length_le (by rw [hword.length_eq]; decide)]
      rfl
    rw [orderKeys_of_hasPrefix (by rw [htrim]; exact htaken.mpr hplain), htrim, hdrop,
      Text.trim_blank_append hblank, Text.trim_trimEnd]
  · rename_i hother
    rw [orderKeys_of_not_hasPrefix (by rw [htrim]; exact fun h => hother (htaken.mp h)), htrim]

theorem orderKeys_lone (hword : IsOrderBy word) (hw : w.all Text.isBlank = true) :
    orderKeys (word ++ w) = word := by
  have hshort : ¬HasPrefix word := by
    intro h
    have hlong : orderByPrefix.length ≤ (Text.upper word).length := h.length_le
    rw [Text.upper_length, hword.length_eq] at hlong
    exact absurd hlong (by decide)
  have htrim : Text.trim (word ++ w) = word := by rw [Text.trim_append_blank hw, hword.trim_eq]
  rw [orderKeys_of_not_hasPrefix (by rw [htrim]; exact hshort), htrim]

/-- An `ORDER BY` in front of an entry does not show in its keys just when it ends in a plain space
and the entry has a key and no prefix of its own. -/
theorem orderKeys_word_eq_iff (hword : IsOrderBy word) (hw : w ≠ [])
    (hspace : w.all Text.isAsciiSpace = true) :
    orderKeys (word ++ w ++ f) = orderKeys f ↔
      w.head? = some ' ' ∧ Text.trim f ≠ [] ∧ ¬HasPrefix (Text.trim f) := by
  by_cases hf : Text.trim f = []
  · have hblank : (w ++ f).all Text.isBlank = true := by
      rw [List.all_append, Text.trim_eq_nil_iff.mp hf, Bool.and_true]
      exact List.all_eq_true.mpr fun d hd =>
        Text.isBlank_of_isAsciiSpace (List.all_eq_true.mp hspace d hd)
    rw [List.append_assoc, orderKeys_lone hword hblank, orderKeys_of_blank hf]
    exact iff_of_false hword.ne_nil fun h => h.2.1 hf
  · rw [orderKeys_word hword hw hspace hf]
    split
    · rename_i hplain
      rw [eq_comm, orderKeys_eq_trim_iff]
      exact ⟨fun h => ⟨hplain, hf, h⟩, fun h => h.2.2⟩
    · rename_i hother
      refine iff_of_false (fun heq => ?_) fun h => hother h.1
      have hlong := congrArg List.length heq
      have hle := length_orderKeys_le f
      have htrim := Text.trim_length_le (Text.trimEnd f)
      have hpositive := List.length_pos_iff.mpr hword.ne_nil
      rw [Text.trim_trimEnd] at htrim
      rw [List.length_append, List.length_append] at hlong
      omega

theorem orderFragments_orderBy (r : Request) (entry : Text) :
    (r.orderBy entry).orderFragments = r.orderFragments ++ [orderKeys entry].filter (· ≠ []) := by
  rw [orderFragments, orderBy, List.map_append, List.filter_append]
  rfl

theorem mem_orderFragments :
    key ∈ r.orderFragments ↔ key ≠ [] ∧ ∃ entry ∈ r.order, orderKeys entry = key := by
  rw [orderFragments, List.mem_filter, List.mem_map, decide_eq_true_eq, and_comm]

/-- The prefix that is taken off is an `ORDER BY` to a keyword search. -/
theorem HasPrefix.beginsOrder (h : HasPrefix t) : BeginsOrder t := by
  obtain ⟨v, hv⟩ := h
  have hspace : orderByPrefix.all (fun d => !Text.isAsciiSpace d || d = ' ') = true := by decide
  have htake : Text.upper (t.take orderByPrefix.length) = orderByPrefix := by
    rw [Text.upper, List.map_take, ← Text.upper, ← hv, List.take_left]
  have hfold : Text.fold (t.take orderByPrefix.length) = orderByPrefix := by
    conv_rhs => rw [← htake]
    refine List.map_congr_left fun c hc => ?_
    have hmem : c.toUpper ∈ orderByPrefix := htake ▸ List.mem_map_of_mem hc
    unfold Text.foldChar
    split
    · rename_i hascii
      rw [Text.toUpper_of_isAsciiSpace hascii] at hmem ⊢
      have hplain := List.all_eq_true.mp hspace c hmem
      rw [hascii, Bool.not_true, Bool.false_or, decide_eq_true_eq] at hplain
      exact hplain.symm
    · rfl
  rw [beginsOrder_iff, ← hfold, ← Text.fold_take]
  exact (List.take_prefix _ _).trans (List.prefix_append _ _)

/-- The keys of an entry begin with `ORDER BY` when the entry does, and goes on with another one
should a prefix be taken off. -/
theorem beginsOrder_orderKeys_iff : BeginsOrder (orderKeys entry) ↔
    BeginsOrder (Text.trim entry) ∧ (HasPrefix (Text.trim entry) →
      BeginsOrder (Text.trim ((Text.trim entry).drop orderByPrefix.length))) := by
  by_cases h : HasPrefix (Text.trim entry)
  · rw [orderKeys_of_hasPrefix h]
    exact ⟨fun hbegin => ⟨h.beginsOrder, fun _ => hbegin⟩, fun hboth => hboth.2 h⟩
  · rw [orderKeys_of_not_hasPrefix h]
    exact ⟨fun hbegin => ⟨hbegin, fun htaken => absurd htaken h⟩, fun hboth => hboth.1⟩

theorem not_beginsOrder_nil : ¬BeginsOrder [] := by decide

theorem forall_not_beginsOrder_iff : (∀ key ∈ r.orderFragments, ¬BeginsOrder key) ↔
    ∀ entry ∈ r.order, BeginsOrder (Text.trim entry) → HasPrefix (Text.trim entry) ∧
      ¬BeginsOrder (Text.trim ((Text.trim entry).drop orderByPrefix.length)) := by
  have hkeys : (∀ key ∈ r.orderFragments, ¬BeginsOrder key) ↔
      ∀ entry ∈ r.order, ¬BeginsOrder (orderKeys entry) := by
    constructor
    · intro h entry hentry hbegin
      refine h _ (mem_orderFragments.mpr ⟨?_, entry, hentry, rfl⟩) hbegin
      intro hnil
      exact not_beginsOrder_nil (hnil ▸ hbegin)
    · intro h key hkey
      obtain ⟨-, entry, hentry, rfl⟩ := mem_orderFragments.mp hkey
      exact h entry hentry
  rw [hkeys]
  refine forall₂_congr fun entry _ => ?_
  rw [beginsOrder_orderKeys_iff, not_and, Classical.not_imp]

/-- What stands behind the first key of an order: the next key, or what limits the rows. -/
def stops : List Text := [", ".toList, " L".toList, " O".toList, ") ".toList]

theorem not_beginsOrder_append (h : ¬BeginsOrder t) (hu : u.take 2 ∈ stops) :
    ¬BeginsOrder (t ++ u) := by
  have hother : ∀ n < 8, ∀ stop ∈ stops, ¬(orderByPrefix.drop n).take 2 <+: Text.fold stop := by
    decide
  have hlength : ∀ stop ∈ stops, stop.length = 2 := by decide
  have htwo : (Text.fold u ++ [' ']).take 2 = Text.fold (u.take 2) := by
    have hle := hlength _ hu
    rw [List.length_take] at hle
    rw [List.take_append_of_le_length (by rw [Text.fold_length]; omega), Text.fold_take]
  rw [beginsOrder_iff] at h ⊢
  rw [Text.fold_append, List.append_assoc]
  refine Text.not_begins_append (fun hin => h (hin.trans (List.prefix_append _ _)))
    fun n hn htake hrest => ?_
  rw [htwo] at hrest
  rcases Nat.lt_or_ge n 8 with hlt | hge
  · exact hother n hlt _ hu hrest
  · obtain rfl : n = 8 := Nat.le_antisymm (Nat.le_of_lt_succ hn) hge
    exact h (by rw [htake]; decide)

end Request

namespace Planner

open Request (orderKeys HasPrefix BeginsOrder IsOrderBy)

variable {p : Planner} {r : Request} {entry other : Text}

/-- An order matters to a plan by its keys only. -/
theorem plan_congr_order (r : Request) (order others : List Text)
    (h : ({ r with order } : Request).orderFragments =
      ({ r with order := others } : Request).orderFragments) :
    p.plan { r with order } = p.plan { r with order := others } := by
  have hstatement : p.statement { r with order } = p.statement { r with order := others } := rfl
  have hcount : p.countText { r with order } = p.countText { r with order := others } := rfl
  have hpage : p.pageText { r with order } = p.pageText { r with order := others } := by
    funext s
    unfold pageText
    rw [h]
    rfl
  have hwindow : p.window { r with order } = p.window { r with order := others } := rfl
  unfold plan
  rw [hstatement, hcount, hpage, hwindow]

theorem plan_orderBy_congr (h : orderKeys entry = orderKeys other) :
    p.plan (r.orderBy entry) = p.plan (r.orderBy other) := by
  refine plan_congr_order r _ _ ?_
  rw [← Request.orderBy, ← Request.orderBy, Request.orderFragments_orderBy,
    Request.orderFragments_orderBy, h]

/-- A blank entry changes nothing. -/
theorem plan_orderBy_blank (h : Text.trim entry = []) : p.plan (r.orderBy entry) = p.plan r := by
  refine plan_congr_order r _ r.order ?_
  rw [← Request.orderBy, Request.orderFragments_orderBy, Request.orderKeys_of_blank h]
  exact List.append_nil _

def users (order : List Text) : Request := { source := "users".toList, order }

theorem page_users (keys : List Text) (w : Window) :
    Statement.page .mysql keys w "SELECT * FROM users".toList =
      .ok (Statement.limited .limitOffset w
        ("SELECT * FROM users".toList ++ Statement.addedOrder .mysql false keys) []) := by
  have hself : Statement.unlimited .mysql "SELECT * FROM users".toList =
      "SELECT * FROM users".toList := by decide +kernel
  have horder : Text.topLevel? Keyword.orderBy 0 "SELECT * FROM users".toList = none := by
    decide +kernel
  have hlock : Text.topLevel? Keyword.forUpdate 0 "SELECT * FROM users".toList = none := by
    decide +kernel
  unfold Statement.page
  simp only [hself, horder, hlock]
  rfl

theorem statement_users (order : List Text) :
    ({ dialect := .mysql } : Planner).statement (users order) =
      .ok ⟨"SELECT * FROM users".toList, []⟩ := by
  have hsame : ({ dialect := .mysql } : Planner).statement (users order) =
    ({ dialect := .mysql } : Planner).statement (users []) := rfl
  rw [hsame]
  rfl

theorem window_users (order : List Text) :
    ({ dialect := .mysql } : Planner).window (users order) = ⟨1, 10, 0⟩ := by
  have hsame : ({ dialect := .mysql } : Planner).window (users order) =
    ({ dialect := .mysql } : Planner).window (users []) := rfl
  rw [hsame]
  decide

theorem limited_users (t : Text) :
    Statement.limited .limitOffset ⟨1, 10, 0⟩ t [] = t ++ " LIMIT 10 OFFSET 0".toList := by
  have hlimit : " LIMIT ".toList ++ (Statement.word 10 ++ (" OFFSET ".toList ++ Statement.word 0)) =
      " LIMIT 10 OFFSET 0".toList := by decide
  unfold Statement.limited
  rw [List.append_nil, List.append_assoc, List.append_assoc, List.append_assoc, hlimit]

theorem pageStatement_users (order : List Text) :
    (({ dialect := .mysql } : Planner).plan (users order)).toOption.map Plan.pageStatement =
      some ("SELECT * FROM users".toList ++
        Statement.addedOrder .mysql false (users order).orderFragments ++
          " LIMIT 10 OFFSET 0".toList) := by
  have hpage : ({ dialect := .mysql } : Planner).pageText (users order)
      ⟨"SELECT * FROM users".toList, []⟩ = .ok ("SELECT * FROM users".toList ++
        Statement.addedOrder .mysql false (users order).orderFragments ++
          " LIMIT 10 OFFSET 0".toList) := by
    rw [pageText, window_users]
    refine (page_users _ _).trans (congrArg Except.ok ?_)
    rw [limited_users]
  unfold plan
  rw [statement_users]
  dsimp only
  rw [hpage]
  rfl

theorem addedOrder_users (entry : Text) :
    Statement.addedOrder .mysql false (users [entry]).orderFragments =
      if orderKeys entry = [] then [] else Keyword.orderBy ++ orderKeys entry := by
  rw [Request.orderFragments, users, List.map_singleton]
  by_cases h : orderKeys entry = []
  · rw [if_pos h, List.filter_cons_of_neg (by simpa using h)]
    rfl
  · rw [if_neg h, List.filter_cons_of_pos (by simpa using h), List.filter_nil,
      Statement.addedOrder, if_neg Bool.false_ne_true, if_neg (by simp),
      Text.commaSeparated_singleton]

/-- Two entries mean the same to every plan just when they have the same keys. -/
theorem plan_orderBy_eq_iff :
    (∀ (p : Planner) (r : Request), p.plan (r.orderBy entry) = p.plan (r.orderBy other)) ↔
      orderKeys entry = orderKeys other := by
  refine ⟨fun h => ?_, fun h p r => plan_orderBy_congr h⟩
  have hplan := h { dialect := .mysql } (users [])
  have hpage := congrArg (fun plan => (Except.toOption plan).map Plan.pageStatement) hplan
  have horder : ∀ entry, (users []).orderBy entry = users [entry] := fun _ => rfl
  rw [horder, horder, pageStatement_users, pageStatement_users, Option.some_inj,
    List.append_cancel_right_eq, List.append_cancel_left_eq, addedOrder_users, addedOrder_users]
    at hpage
  have hkeyword : ∀ key, Keyword.orderBy ++ key ≠ [] := fun _ => List.cons_ne_nil _ _
  split_ifs at hpage with hentry hother hother
  · rw [hentry, hother]
  · exact absurd hpage.symm (hkeyword _)
  · exact absurd hpage (hkeyword _)
  · exact List.append_cancel_left hpage

/-- An order is put in between two texts, and what limits the rows begins in one of a few ways. -/
theorem exists_limited_behind (limit : LimitSyntax) (w : Window) (locking : Text) :
    ∃ before behind, behind.take 2 ∈ Request.stops ∧
      ∀ t, Statement.limited limit w t locking = before ++ t ++ behind := by
  by_cases hrow : limit = .rowNum
  · subst hrow
    refine ⟨"SELECT * FROM (SELECT row_.*, ROWNUM rownum_ FROM (".toList,
      ") row_ WHERE ROWNUM <= ".toList ++ (Statement.word w.last ++
        (") WHERE rownum_ > ".toList ++ Statement.word w.offset)),
      (by decide : ") ".toList ∈ Request.stops), fun t => ?_⟩
    unfold Statement.limited
    simp only [List.append_assoc]
  · refine ⟨[], Statement.limited limit w [] [] ++ locking, ?_, fun t => ?_⟩
    · cases limit with
      | limitOffset => exact (by decide : " L".toList ∈ Request.stops)
      | offsetFetch => exact (by decide : " O".toList ∈ Request.stops)
      | rowNum => exact absurd rfl hrow
    · rw [Statement.limited_eq_append hrow, List.nil_append, List.append_assoc]

/-- Keys that do not begin with `ORDER BY` do not do so in the order of a page either. -/
theorem not_beginsOrder_orderPutIn {s : Statement} {keys behind : Text}
    (h : ∀ key ∈ r.orderFragments, ¬BeginsOrder key) (hbehind : behind.take 2 ∈ Request.stops)
    (hput : p.orderPutIn r s = Keyword.orderBy ++ keys) : ¬BeginsOrder (keys ++ behind) := by
  have hkeyword : Keyword.orderBy ++ keys ≠ [] := List.cons_ne_nil _ _
  rw [orderPutIn, Statement.addedOrder] at hput
  split at hput
  · exact absurd hput.symm hkeyword
  · cases hfragments : r.orderFragments with
    | nil =>
      rw [hfragments] at hput
      have hneutral : ¬BeginsOrder Statement.neutralOrder := by decide
      rw [if_pos List.isEmpty_nil] at hput
      split at hput
      · obtain rfl := List.append_cancel_left hput
        exact Request.not_beginsOrder_append hneutral hbehind
      · exact absurd hput.symm hkeyword
    | cons key others =>
      have hkey := h key (hfragments ▸ List.mem_cons_self)
      rw [hfragments, if_neg (by simp)] at hput
      obtain rfl := List.append_cancel_left hput
      cases others with
      | nil =>
        rw [Text.commaSeparated_singleton]
        exact Request.not_beginsOrder_append hkey hbehind
      | cons next others =>
        rw [Text.commaSeparated_cons_cons, List.append_assoc]
        exact Request.not_beginsOrder_append hkey (by decide : ", ".toList ∈ Request.stops)

/-- The page of a plan is made of what is put in between two texts. -/
theorem exists_orderPutIn {plan : Plan} (h : p.plan r = .ok plan) :
    ∃ s pageText before behind, p.statement r = .ok s ∧ p.pageText r s = .ok pageText ∧
      plan.pageStatement = Placeholder.restyle p.dialect.placeholderStyle pageText ∧
      pageText = before ++ p.orderPutIn r s ++ behind ∧ behind.take 2 ∈ Request.stops := by
  obtain ⟨s, pageText, hs, hpage, rfl⟩ := eq_of_plan h
  obtain ⟨heq, -⟩ := Statement.eq_of_page rfl hpage
  obtain ⟨before, behind, hbehind, hlimited⟩ := exists_limited_behind p.dialect.limitSyntax
    (p.window r) ((Statement.unlimited p.dialect s.text).drop
      ((Text.topLevel? Keyword.forUpdate 0 (Statement.unlimited p.dialect s.text)).getD
        (Statement.unlimited p.dialect s.text).length))
  rw [hlimited, ← List.append_assoc] at heq
  exact ⟨s, pageText, _, behind, hs, hpage, rfl, heq, hbehind⟩

/-- Keys are trimmed and never empty, and blank entries change nothing. A key begins with `ORDER BY`
exactly when its entry does, trimmed, and has no prefix that is taken off or another `ORDER BY`
behind it; without such a key no page has an `ORDER BY` behind the one that is put in. An `ORDER BY`
in front of an entry makes no difference exactly when a plain space stands behind it, the entry is
not blank and has no prefix of its own. -/
theorem entries_read (p : Planner) (r : Request) :
    (∀ key ∈ r.orderFragments, key ≠ [] ∧ Text.trim key = key) ∧
      (∀ entry, Text.trim entry = [] → p.plan (r.orderBy entry) = p.plan r) ∧
      ((∀ key ∈ r.orderFragments, ¬BeginsOrder key) ↔
        ∀ entry ∈ r.order, BeginsOrder (Text.trim entry) → HasPrefix (Text.trim entry) ∧
          ¬BeginsOrder (Text.trim ((Text.trim entry).drop Request.orderByPrefix.length))) ∧
      ((∀ key ∈ r.orderFragments, ¬BeginsOrder key) → ∀ plan, p.plan r = .ok plan →
        ∃ s pageText before behind, p.statement r = .ok s ∧ p.pageText r s = .ok pageText ∧
          plan.pageStatement = Placeholder.restyle p.dialect.placeholderStyle pageText ∧
          pageText = before ++ p.orderPutIn r s ++ behind ∧
          ∀ keys, p.orderPutIn r s = Keyword.orderBy ++ keys → ¬BeginsOrder (keys ++ behind)) ∧
      ∀ word w f, IsOrderBy word → w ≠ [] → w.all Text.isAsciiSpace = true →
        ((∀ (p : Planner) (r : Request),
            p.plan (r.orderBy (word ++ w ++ f)) = p.plan (r.orderBy f)) ↔
          w.head? = some ' ' ∧ Text.trim f ≠ [] ∧ ¬HasPrefix (Text.trim f)) := by
  refine ⟨fun key hkey => ?_, fun entry => plan_orderBy_blank, Request.forall_not_beginsOrder_iff,
    fun hkeys plan hplan => ?_, fun word w f hword hw hspace => ?_⟩
  · obtain ⟨hne, entry, -, rfl⟩ := Request.mem_orderFragments.mp hkey
    exact ⟨hne, Request.trim_orderKeys entry⟩
  · obtain ⟨s, pageText, before, behind, hs, hpage, hrestyle, heq, hbehind⟩ :=
      exists_orderPutIn hplan
    exact ⟨s, pageText, before, behind, hs, hpage, hrestyle, heq,
      fun keys => not_beginsOrder_orderPutIn hkeys hbehind⟩
  · exact plan_orderBy_eq_iff.trans (Request.orderKeys_word_eq_iff hword hw hspace)

/-- A tab behind `ORDER BY`, or nothing, and the page has it twice. -/
theorem orderBy_kept_users :
    (∃ plan, ({ dialect := .mysql } : Planner).plan (users ["ORDER BY\tid".toList]) = .ok plan ∧
      plan.pageStatement =
        "SELECT * FROM users ORDER BY ORDER BY\tid LIMIT 10 OFFSET 0".toList) ∧
    (∃ plan, ({ dialect := .mysql } : Planner).plan (users ["ORDER BY ".toList]) = .ok plan ∧
      plan.pageStatement = "SELECT * FROM users ORDER BY ORDER BY LIMIT 10 OFFSET 0".toList) ∧
    BeginsOrder "ORDER BY\tid".toList ∧ BeginsOrder "ORDER BY".toList ∧
    (users ["ORDER BY\tid".toList, "ORDER BY ".toList]).orderFragments =
      ["ORDER BY\tid".toList, "ORDER BY".toList] := by
  obtain ⟨tabbed, htabbed, -, hpage⟩ := exists_plan { dialect := .mysql }
    (users ["ORDER BY\tid".toList]) "SELECT COUNT(*) FROM users".toList
    "SELECT * FROM users ORDER BY ORDER BY\tid LIMIT 10 OFFSET 0".toList (by decide +kernel)
  obtain ⟨lone, hlone, -, hlonePage⟩ := exists_plan { dialect := .mysql }
    (users ["ORDER BY ".toList]) "SELECT COUNT(*) FROM users".toList
    "SELECT * FROM users ORDER BY ORDER BY LIMIT 10 OFFSET 0".toList (by decide +kernel)
  exact ⟨⟨tabbed, htabbed, hpage⟩, ⟨lone, hlone, hlonePage⟩, by decide, by decide, by decide⟩

end Planner

end PagedQuery
