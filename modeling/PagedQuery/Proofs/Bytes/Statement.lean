import PagedQuery.Proofs.Bytes.Occurrence
import PagedQuery.Statement.Basic

/-!
# Statements cut by byte offsets

The profile of a source and its restricted statement, made from the offsets that keyword
search gives. Every slice and every splice may fail here; none does, and what they give
is what cutting by positions gives. The condition ends no earlier than it begins, and
the clauses of a statement begin in it.
-/
namespace PagedQuery

namespace Clauses

/-- The offsets at which the clauses of a text begin. -/
def offsets (t : Text) (clauses : Clauses) : Clauses where
  fromAt := Text.offset t clauses.fromAt
  whereAt := clauses.whereAt.map (Text.offset t)
  bodyAt := Text.offset t clauses.bodyAt
  tailAt := Text.offset t clauses.tailAt

variable {t : Text} {clauses : Clauses}

theorem body_le_tail (h : of? t = some clauses) : clauses.bodyAt ≤ clauses.tailAt := by
  cases hwhere : clauses.whereAt with
  | some whereAt => exact bodyAt_le_tailAt h hwhere
  | none =>
    obtain ⟨hfrom, -, hbody, htail⟩ := eq_of_of? h
    rw [hwhere] at hbody
    rw [htail]
    cases hfound : Text.firstTopLevel? Keyword.trailing clauses.bodyAt t with
    | none =>
      rw [Option.getD_none, hbody]
      exact (Text.occurs_of_topLevel? hfrom).length_le
    | some tailAt => exact (Text.firstTopLevel?_eq_some_iff.mp hfound).2.1

end Clauses

namespace Bytes

open Statement

def mentionsAny (tokens : List Text) (t : Text) : Bool := tokens.any fun token => mentions token t

def profile? (t : Text) : Option Profile := do
  let hasCte ← startsWith? "WITH ".toList t
  let hasSelect ← startsWith? "SELECT ".toList t
  some
    { hasSelect := hasSelect || hasCte
      hasFrom := mentions " FROM ".toList t
      hasWhere := mentions " WHERE ".toList t
      hasOrderBy := mentions " ORDER BY ".toList t
      hasGroupBy := mentions " GROUP BY ".toList t
      hasHaving := mentions " HAVING ".toList t
      hasDistinct := mentions " DISTINCT ".toList t
      hasJoin := mentionsAny Profile.joinWords t
      hasSetOperation := mentionsAny Profile.setOperations t
      hasSubquery := mentionsAny Profile.subqueryOpenings t
      hasCte }

def base? (r : Request) (profile : Profile) : Option (Except PlanError Text) :=
  let source := bareSource r.source
  if profile.hasSelect then
    some (if profile.hasFrom then .ok source else .error (.missingFrom source))
  else do
    let opensWithFrom ← startsWith? "FROM ".toList source
    some <|
      if opensWithFrom then .ok ("SELECT * ".toList ++ source)
      else if source.isEmpty then (requiredTable r "<empty source>".toList).map selectAll
      else if isTableName source then .ok (selectAll source)
      else (requiredTable r source).map fun table =>
        selectAll table ++ Keyword.whereClause ++ source

def clauses? (t : Text) : Option (Option Clauses) := do
  match ← find? Keyword.fromClause 0 t with
  | none => some none
  | some fromAt =>
    let whereAt ← find? Keyword.whereClause fromAt t
    let bodyAt :=
      match whereAt with
      | none => fromAt + Text.utf8Size Keyword.fromClause
      | some i => i + Text.utf8Size Keyword.whereClause
    let tailAt ← findFirst? Keyword.trailing bodyAt t
    some (some ⟨fromAt, whereAt, bodyAt, tailAt.getD (Text.utf8Size t)⟩)

def head? (t : Text) (clauses : Clauses) : Option Text :=
  match clauses.whereAt with
  | none => do
    let front ← Text.before? t clauses.tailAt
    some (Text.trimEnd front ++ neutralWhere)
  | some whereAt => do
    let body := Text.trim (← Text.slice? t clauses.bodyAt clauses.tailAt)
    match ← find? Keyword.or 0 body with
    | some _ =>
      let front ← Text.before? t whereAt
      some (front ++ Keyword.whereClause ++ Predicate.parenthesized body)
    | none =>
      let front ← Text.before? t clauses.tailAt
      some (Text.trimEnd front)

def withCondition? (t : Text) (clauses : Clauses) : Option Text :=
  if clauses.whereAt.isNone ∧ clauses.tailAt < Text.utf8Size t then do
    let front ← Text.before? t clauses.tailAt
    let tail ← Text.from? t clauses.tailAt
    some (Text.trimEnd front ++ neutralWhere ++ tail)
  else some t

/-- The number of values in front of those of the filter. -/
def splicePosition (head : Text) (values : List Value) : Nat :=
  min (Placeholder.count head) values.length

/-- The values with more values put in at a position, which must not lie behind the last one. -/
def splice? (values : List Value) (position : Nat) (more : List Value) : Option (List Value) :=
  if position ≤ values.length then some (splice values position more) else none

def restrict? (t : Text) (clauses : Clauses) (parameters : List Value) (fragment : Fragment) :
    Option Statement :=
  if fragment.text.isEmpty then do
    let text ← withCondition? t clauses
    some ⟨text, parameters⟩
  else do
    let head ← head? t clauses
    let values ← splice? parameters (splicePosition head parameters) fragment.values
    let tail ← Text.from? t clauses.tailAt
    some ⟨head ++ " AND ".toList ++ Predicate.parenthesized fragment.text ++ tail, values⟩

def ofRequest? (dialect : Dialect) (r : Request) (profile : Profile) (fragment : Fragment) :
    Option (Except PlanError Statement) := do
  match ← base? r profile with
  | .error e => some (.error e)
  | .ok t =>
    if profile.hasSetOperation then
      some (.ok (restrictSetOperation dialect t r.parameters fragment))
    else
      match ← clauses? t with
      | none => some (.error (.missingFrom t))
      | some clauses =>
        let s ← restrict? t clauses r.parameters fragment
        some (.ok s)

variable {t : Text} {clauses : Clauses}

theorem mentionsAny_eq {tokens : List Text}
    (h : ∀ token ∈ tokens, Text.IsAscii token ∧ token ≠ []) (t : Text) :
    mentionsAny tokens t = Profile.mentionsAny tokens t := by
  rw [mentionsAny, Profile.mentionsAny, Bool.eq_iff_iff, List.any_eq_true, List.any_eq_true]
  refine exists_congr fun token => and_congr_right fun htoken => ?_
  rw [mentions_eq (h token htoken).1 (h token htoken).2]

theorem profile?_eq (t : Text) : profile? t = some (Profile.of t) := by
  have hcte : startsWith? "WITH ".toList t = some (Text.startsWith "WITH ".toList t) :=
    startsWith?_eq (by decide) t
  have hselect : startsWith? "SELECT ".toList t = some (Text.startsWith "SELECT ".toList t) :=
    startsWith?_eq (by decide) t
  have hjoin := mentionsAny_eq (show ∀ token ∈ Profile.joinWords, _ by decide) t
  have hset := mentionsAny_eq (show ∀ token ∈ Profile.setOperations, _ by decide) t
  have hsub := mentionsAny_eq (show ∀ token ∈ Profile.subqueryOpenings, _ by decide) t
  rw [profile?, hcte, hselect]
  simp (disch := decide) only [Option.bind_eq_bind, Option.bind_some, Profile.of, mentions_eq,
    hjoin, hset, hsub]

theorem base?_eq (r : Request) (profile : Profile) : base? r profile = some (base r profile) := by
  have hfrom := startsWith?_eq (show Text.IsAscii "FROM ".toList by decide) (bareSource r.source)
  simp only [base?, base, hfrom, Option.bind_eq_bind, Option.bind_some]
  split <;> rfl

theorem clauses?_eq (t : Text) : clauses? t = some ((Clauses.of? t).map (Clauses.offsets t)) := by
  have hwhereClause : Keyword.whereClause ∈ Keyword.cuts := by decide
  have htrailing : Keyword.trailing ⊆ Keyword.cuts := fun _ h => Keyword.mem_cuts_of_mem_trailing h
  rw [clauses?, find?_zero (by decide), Option.bind_eq_bind, Option.bind_some, Clauses.of?]
  cases hfrom : Text.topLevel? Keyword.fromClause 0 t with
  | none => rfl
  | some fromAt =>
    cases hwhere : Text.topLevel? Keyword.whereClause fromAt t with
    | none =>
      simp only [Option.map_some, Option.map_none, find?_eq hwhereClause, hwhere,
        offset_behind hfrom, findFirst?_eq htrailing, Option.bind_some, Text.getD_map_offset]
      rfl
    | some whereAt =>
      simp only [Option.map_some, find?_eq hwhereClause, hwhere, offset_behind hwhere,
        findFirst?_eq htrailing, Option.bind_some, Text.getD_map_offset]
      rfl

theorem head?_eq (h : clauses.bodyAt ≤ clauses.tailAt) :
    head? t (clauses.offsets t) = some (head t clauses) := by
  cases hwhere : clauses.whereAt with
  | none => simp [head?, head, Clauses.offsets, hwhere]
  | some whereAt =>
    have hslice : Text.slice? t (clauses.offsets t).bodyAt (clauses.offsets t).tailAt
        = some ((t.take clauses.tailAt).drop clauses.bodyAt) := Text.slice?_offset t h
    have hoffset : (clauses.offsets t).whereAt = some (Text.offset t whereAt) := by
      rw [Clauses.offsets, hwhere, Option.map_some]
    have htail : Text.before? t (clauses.offsets t).tailAt = some (t.take clauses.tailAt) :=
      Text.before?_offset t clauses.tailAt
    simp only [head?, head, hwhere, hoffset, hslice, htail, Text.before?_offset,
      find?_zero (show Keyword.or ∈ Keyword.cuts by decide), Option.bind_eq_bind, Option.bind_some]
    cases Text.topLevel? Keyword.or 0 (Text.trim ((t.take clauses.tailAt).drop clauses.bodyAt)) with
    | none => rfl
    | some orAt => rfl

theorem withCondition?_eq (h : clauses.tailAt ≤ t.length) :
    withCondition? t (clauses.offsets t) = some (withCondition t clauses) := by
  simp only [withCondition?, withCondition, Clauses.offsets, Option.isNone_map,
    Text.offset_lt_iff h]
  split
  · simp
  · rfl

theorem splice?_eq (head : Text) (values more : List Value) :
    splice? values (splicePosition head values) more
      = some (splice values (min (Placeholder.count head) values.length) more) :=
  if_pos (Nat.min_le_right _ _)

/-- Restricting a statement cuts and splices in range. -/
theorem restrict?_eq (h : Clauses.of? t = some clauses) (parameters : List Value)
    (fragment : Fragment) :
    restrict? t (clauses.offsets t) parameters fragment
      = some (restrict t clauses parameters fragment) := by
  have hhead := head?_eq (t := t) (Clauses.body_le_tail h)
  have hcondition := withCondition?_eq (Clauses.tailAt_le h)
  have htail : Text.from? t (clauses.offsets t).tailAt = some (t.drop clauses.tailAt) :=
    Text.from?_offset t clauses.tailAt
  simp only [restrict?, restrict, hcondition, hhead, splice?_eq, htail, Option.bind_eq_bind,
    Option.bind_some]
  split <;> rfl

theorem ofRequest?_eq (dialect : Dialect) (r : Request) (profile : Profile) (fragment : Fragment) :
    ofRequest? dialect r profile fragment = some (ofRequest dialect r profile fragment) := by
  rw [ofRequest?, base?_eq, Option.bind_eq_bind, Option.bind_some, ofRequest]
  cases base r profile with
  | error e => rfl
  | ok t =>
    by_cases hset : profile.hasSetOperation = true
    · simp [hset]
    · simp only [hset, clauses?_eq, Option.bind_eq_bind, Option.bind_some, if_false,
        Bool.false_eq_true]
      cases hclauses : Clauses.of? t with
      | none => rfl
      | some clauses => simp only [Option.map_some, restrict?_eq hclauses, Option.bind_some]

end Bytes

end PagedQuery
