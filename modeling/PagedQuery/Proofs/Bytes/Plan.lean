import PagedQuery.Plan
import PagedQuery.Proofs.Bytes.Statement

/-!
# Plans cut by byte offsets

The count statement, the page statement, the order keys and the numbering of
placeholders, cut at the offsets that keyword search gives. Planning this way always
gets a result, and it is the plan that cutting by positions gives: for no dialect, no
options and no request a slice runs backwards, leaves its text or cuts a character
apart, and no splice lies behind the last value.
-/
namespace PagedQuery

namespace Bytes

open Statement

/-- The offsets between which the order of a text stands, if it has one. -/
def orderBounds? (t : Text) : Option (Option (Nat × Nat)) := do
  match ← find? Keyword.orderBy 0 t with
  | none => some none
  | some orderAt =>
    let endAt ← findFirst? Keyword.limits (orderAt + Text.utf8Size Keyword.orderBy) t
    some (some (orderAt, endAt.getD (Text.utf8Size t)))

def withoutOrder? (t : Text) : Option (Option Text) := do
  match ← orderBounds? t with
  | none => some (some t)
  | some (orderAt, endAt) =>
    let order ← Text.slice? t orderAt endAt
    if 0 < Placeholder.count order then some none
    else
      let isLimited ← hasTopLevel? Keyword.rowLimits (orderAt + Text.utf8Size Keyword.orderBy) t
      if isLimited then some none
      else
        let front ← Text.before? t orderAt
        let rest ← Text.from? t endAt
        some (some (front ++ rest))

def countDirectly? (t : Text) : Option (Option Text) := do
  match ← find? Keyword.fromClause 0 t with
  | none => some none
  | some fromAt =>
    let (selectList, rest) ← Text.cut? t fromAt
    if 0 < Placeholder.count selectList ∨ mentionsAny Profile.subqueryOpenings rest then some none
    else
      let isLimited ← hasTopLevel? Keyword.limits fromAt t
      some (if isLimited then none else some ("SELECT COUNT(*)".toList ++ rest))

def count? (dialect : Dialect) (tableAlias : Text) (profile : Profile) (t : Text) : Option Text := do
  match ← withoutOrder? t with
  | none => some (countWrapped dialect tableAlias t)
  | some stripped =>
    if profile.isComplex then some (countWrapped dialect tableAlias stripped)
    else
      let direct ← countDirectly? stripped
      some (direct.getD (countWrapped dialect tableAlias stripped))

def unlimited? (dialect : Dialect) (t : Text) : Option Text := do
  let isLimited ← hasTopLevel? Keyword.rowLimits 0 t
  some (if isLimited then selectAll (dialect.derivedTable t pageAlias) else t)

def page? (dialect : Dialect) (keys : List Text) (w : Window) (t : Text) :
    Option (Except PlanError Text) := do
  let t ← unlimited? dialect t
  let orderAt ← find? Keyword.orderBy 0 t
  let lockAt ← find? Keyword.forUpdate 0 t
  let (front, locking) ← Text.cut? t (lockAt.getD (Text.utf8Size t))
  some <|
    if ¬locking.isEmpty ∧ ¬dialect.locksPages then .error (.unsupportedLocking dialect t)
    else
      .ok (limited dialect.limitSyntax w
        (Text.trimEnd front ++ addedOrder dialect orderAt.isSome keys) locking)

/-- The text without an `ORDER BY` and one space at its beginning. The first bytes of a
text that are no whole characters are none of these. -/
def dropOrderBy? (t : Text) : Option Text :=
  let size := Text.utf8Size Request.orderByPrefix
  match Text.before? t size with
  | none => some t
  | some front => if Text.upper front = Request.orderByPrefix then Text.from? t size else some t

/-- The order entries that are left, without `ORDER BY`. -/
def orderFragments? (r : Request) : Option (List Text) := do
  let keys ← r.order.mapM fun entry => (dropOrderBy? (Text.trim entry)).map Text.trim
  some (keys.filter (· ≠ []))

/-- The highest number among the tokens outside quotes, where the text that is left
begins at the byte `i` of the whole text in the state `q`. -/
def highestFrom? (whole marker : Text) (q : Quote) (i : Nat) : Text → Option UInt64
  | [] => some 0
  | c :: t => do
    let here ←
      if q = .outside then do
        if marker.isPrefixOf (← Text.from? whole i) then do
          let digits ← Text.from? whole (i + Text.utf8Size marker)
          some (Placeholder.leadingNumber? digits)
        else some none
      else some none
    let more ← highestFrom? whole marker (q.step c) (i + c.utf8Size) t
    some (max (here.getD 0) more)

def highest? (style : PlaceholderStyle) (t : Text) : Option UInt64 :=
  match style.marker? with
  | none => some 0
  | some marker => highestFrom? t marker .outside 0 t

/-- The text with its placeholders in the given style. Only the cuts of the search for numbers are
checked; the indices are 64-bit words and wrap. -/
def restyle? (style : PlaceholderStyle) (t : Text) : Option Text :=
  if style = .question then some t
  else do
    let used ← highest? style t
    some (Placeholder.numberFrom style used .outside t)

def plan? (p : Planner) (r : Request) : Option (Except PlanError Plan) :=
  match r.filter.render with
  | .error e => some (.error (.filter e))
  | .ok fragment => do
    let profile ← profile? r.source
    match ← ofRequest? p.dialect r profile fragment with
    | .error e => some (.error e)
    | .ok s =>
      let countText ← count? p.dialect p.options.countAlias profile s.text
      let keys ← orderFragments? r
      match ← page? p.dialect keys (p.window r) s.text with
      | .error e => some (.error e)
      | .ok pageText =>
        let countStatement ← restyle? p.dialect.placeholderStyle countText
        let pageStatement ← restyle? p.dialect.placeholderStyle pageText
        some (.ok
          { countStatement, pageStatement, parameters := s.parameters, window := p.window r,
            dialect := p.dialect })

variable {t : Text}

theorem rowLimits_subset : Keyword.rowLimits ⊆ Keyword.cuts := by decide

theorem limits_subset : Keyword.limits ⊆ Keyword.cuts := by decide

theorem orderBounds?_eq (t : Text) :
    orderBounds? t = some ((Text.topLevel? Keyword.orderBy 0 t).map fun orderAt =>
      (Text.offset t orderAt, Text.offset t
        ((Text.firstTopLevel? Keyword.limits (orderAt + Keyword.orderBy.length) t).getD
          t.length))) := by
  rw [orderBounds?, find?_zero (by decide), Option.bind_eq_bind, Option.bind_some]
  cases horder : Text.topLevel? Keyword.orderBy 0 t with
  | none => rfl
  | some orderAt =>
    simp only [Option.map_some, offset_behind horder, findFirst?_eq limits_subset,
      Option.bind_some, Text.getD_map_offset]

theorem le_orderEnd {orderAt : Nat} (h : Text.topLevel? Keyword.orderBy 0 t = some orderAt) :
    orderAt + Keyword.orderBy.length ≤
      (Text.firstTopLevel? Keyword.limits (orderAt + Keyword.orderBy.length) t).getD t.length := by
  cases hend : Text.firstTopLevel? Keyword.limits (orderAt + Keyword.orderBy.length) t with
  | none => exact (Text.occurs_of_topLevel? h).length_le
  | some endAt => exact (Text.firstTopLevel?_eq_some_iff.mp hend).2.1

theorem withoutOrder?_eq (t : Text) : withoutOrder? t = some (Statement.withoutOrder? t) := by
  rw [withoutOrder?, orderBounds?_eq, Option.bind_eq_bind, Option.bind_some, Statement.withoutOrder?]
  cases horder : Text.topLevel? Keyword.orderBy 0 t with
  | none => rfl
  | some orderAt =>
    have hle : orderAt ≤
        (Text.firstTopLevel? Keyword.limits (orderAt + Keyword.orderBy.length) t).getD t.length :=
      Nat.le_trans (Nat.le_add_right _ _) (le_orderEnd horder)
    simp only [Option.map_some, Text.slice?_offset t hle, offset_behind horder,
      hasTopLevel?_eq rowLimits_subset, Option.bind_eq_bind, Option.bind_some, Text.before?_offset,
      Text.from?_offset]
    split
    · rfl
    · split <;> rfl

theorem countDirectly?_eq (t : Text) : countDirectly? t = some (Statement.countDirectly? t) := by
  have hsub := mentionsAny_eq (show ∀ token ∈ Profile.subqueryOpenings, _ by decide)
  rw [countDirectly?, find?_zero (by decide), Option.bind_eq_bind, Option.bind_some,
    Statement.countDirectly?]
  cases hfrom : Text.topLevel? Keyword.fromClause 0 t with
  | none => rfl
  | some fromAt =>
    simp only [Option.map_some, Text.cut?_offset, Option.bind_eq_bind, Option.bind_some, hsub,
      hasTopLevel?_eq limits_subset]
    by_cases hlist : 0 < Placeholder.count (t.take fromAt) ∨
        Profile.mentionsAny Profile.subqueryOpenings (t.drop fromAt) = true
    · rw [if_pos hlist, if_pos (or_assoc.mp (Or.inl hlist))]
    · rw [if_neg hlist]
      simp only [← or_assoc, hlist, false_or]

theorem count?_eq (dialect : Dialect) (tableAlias : Text) (profile : Profile) (t : Text) :
    count? dialect tableAlias profile t = some (count dialect tableAlias profile t) := by
  rw [count?, withoutOrder?_eq, Option.bind_eq_bind, Option.bind_some, count]
  cases Statement.withoutOrder? t with
  | none => rfl
  | some stripped =>
    simp only [countDirectly?_eq, Option.bind_some]
    split <;> rfl

theorem unlimited?_eq (dialect : Dialect) (t : Text) :
    unlimited? dialect t = some (unlimited dialect t) := by
  have hlimited := hasTopLevel?_eq rowLimits_subset t 0
  rw [Text.offset_zero] at hlimited
  rw [unlimited?, hlimited]
  rfl

theorem page?_eq (dialect : Dialect) (keys : List Text) (w : Window) (t : Text) :
    page? dialect keys w t = some (page dialect keys w t) := by
  rw [page?, unlimited?_eq, Option.bind_eq_bind, Option.bind_some]
  unfold page
  simp only [find?_zero (show Keyword.orderBy ∈ Keyword.cuts by decide),
    find?_zero (show Keyword.forUpdate ∈ Keyword.cuts by decide), Option.bind_eq_bind,
    Option.bind_some, Text.getD_map_offset, Text.cut?_offset, Option.isSome_map]

theorem dropOrderBy?_eq (t : Text) : dropOrderBy? t = some (Request.dropOrderBy t) := by
  have hsize : Text.utf8Size Request.orderByPrefix = Request.orderByPrefix.length := by decide
  rw [dropOrderBy?, Request.dropOrderBy, hsize]
  by_cases h : Text.upper (t.take Request.orderByPrefix.length) = Request.orderByPrefix
  · have hoffset : Text.offset t Request.orderByPrefix.length = Request.orderByPrefix.length := by
      rw [Text.offset, ← Text.utf8Size_upper, h, hsize]
    have hfront := Text.before?_offset t Request.orderByPrefix.length
    have hrest := Text.from?_offset t Request.orderByPrefix.length
    rw [hoffset] at hfront hrest
    simp only [hfront, hrest, h, if_true]
  · rw [if_neg h]
    cases hfront : Text.before? t Request.orderByPrefix.length with
    | none => rfl
    | some front =>
      have hne : Text.upper front ≠ Request.orderByPrefix := by
        intro hupper
        have hlength : front.length = Request.orderByPrefix.length := by
          rw [← Text.upper_length, hupper]
        obtain ⟨⟨_, rest⟩, hcut, rfl⟩ := Option.map_eq_some_iff.mp hfront
        obtain ⟨rfl, -⟩ := Text.cut?_eq_some_iff.mp hcut
        rw [← hlength, List.take_left' rfl] at h
        exact h hupper
      simp only [hne, if_false]

theorem orderFragments?_eq (r : Request) : orderFragments? r = some r.orderFragments := by
  have hkeys : (r.order.mapM fun entry => (dropOrderBy? (Text.trim entry)).map Text.trim)
      = some (r.order.map Request.orderKeys) :=
    mapM_eq_some_map fun entry _ => by rw [dropOrderBy?_eq]; rfl
  rw [orderFragments?, hkeys]
  rfl

/-- Tokens are looked for at every character of the text and their numbers behind the
marker that is there. -/
theorem highestFrom?_eq {whole marker t : Text} {q : Quote} {i : Nat}
    (h : Text.from? whole i = some t) :
    highestFrom? whole marker q i t = some (Placeholder.highestFrom marker q t) := by
  induction t generalizing q i with
  | nil => rfl
  | cons c t ih =>
    have hnext : Text.from? whole (i + c.utf8Size) = some t := Text.from?_add (s := [c]) h
    rw [highestFrom?, ih hnext, Placeholder.highestFrom]
    by_cases hq : q = .outside
    · by_cases hmarker : marker <+: c :: t
      · obtain ⟨digits, hdigits⟩ := id hmarker
        have hbehind : Text.from? whole (i + Text.utf8Size marker) = some digits :=
          Text.from?_add (by rw [hdigits]; exact h)
        have hdrop : (c :: t).drop marker.length = digits := by
          rw [← hdigits, List.drop_left' rfl]
        simp [hq, h, hmarker, hbehind, hdrop, Placeholder.leadingToken?]
      · simp [hq, h, hmarker, Placeholder.leadingToken?]
    · simp [hq]

theorem restyle?_eq (style : PlaceholderStyle) (t : Text) :
    restyle? style t = some (Placeholder.restyle style t) := by
  have hhighest : highest? style t = some (Placeholder.highest style t) := by
    rw [highest?, Placeholder.highest]
    cases style.marker? with
    | none => rfl
    | some marker => exact highestFrom?_eq (by simp [Text.from?])
  rw [restyle?, hhighest]
  cases style <;> rfl

/-- Planning cuts and splices in range, and what it gives is the plan. -/
theorem plan?_eq (p : Planner) (r : Request) : plan? p r = some (p.plan r) := by
  unfold plan? Planner.plan Planner.statement Planner.pageText Planner.countText
  cases r.filter.render with
  | error e => rfl
  | ok fragment =>
    simp only [profile?_eq, ofRequest?_eq, Option.bind_eq_bind, Option.bind_some]
    cases ofRequest p.dialect r (.of r.source) fragment with
    | error e => rfl
    | ok s =>
      simp only [count?_eq, orderFragments?_eq, page?_eq, Option.bind_some]
      cases page p.dialect r.orderFragments (p.window r) s.text with
      | error e => rfl
      | ok pageText => simp only [restyle?_eq, Option.bind_some]

end Bytes

namespace Planner

/-- No text makes planning cut out of range. With every slice, split and splice checked,
planning gets a result for each dialect, options and request, and it is the plan. The tail
of a statement begins in it and not in front of the body, the order is not empty and ends
in the statement, and the values of a filter go behind values that there are. Arithmetic
is not checked: the indices of placeholders wrap as 64-bit words do. -/
theorem plan_cuts_in_range (p : Planner) (r : Request) :
    Bytes.plan? p r = some (p.plan r) ∧
      (∀ t, ∃ found, Bytes.clauses? t = some found ∧
        ∀ clauses ∈ found, clauses.bodyAt ≤ clauses.tailAt ∧ clauses.tailAt ≤ Text.utf8Size t) ∧
      (∀ t, ∃ found, Bytes.orderBounds? t = some found ∧
        ∀ bounds ∈ found, bounds.1 < bounds.2 ∧ bounds.2 ≤ Text.utf8Size t) ∧
      ∀ head values, Bytes.splicePosition head values ≤ values.length := by
  refine ⟨Bytes.plan?_eq p r, fun t => ?_, fun t => ?_, fun _ _ => Nat.min_le_right _ _⟩
  · refine ⟨_, Bytes.clauses?_eq t, fun found hfound => ?_⟩
    obtain ⟨clauses, hclauses, rfl⟩ := Option.map_eq_some_iff.mp hfound
    exact ⟨Text.offset_mono t (Clauses.body_le_tail hclauses), Text.offset_le t _⟩
  · refine ⟨_, Bytes.orderBounds?_eq t, fun bounds hbounds => ?_⟩
    obtain ⟨orderAt, horder, rfl⟩ := Option.map_eq_some_iff.mp hbounds
    have hbehind := Bytes.offset_behind horder
    have hend := Text.offset_mono t (Bytes.le_orderEnd horder)
    have hsize : Text.utf8Size Keyword.orderBy = 10 := by decide
    exact ⟨by dsimp only; omega, Text.offset_le t _⟩

end Planner

end PagedQuery
