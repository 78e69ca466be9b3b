import PagedQuery.Plan

/-!
# Traced statements

A trace is a text whose placeholders remember where they come from: which one of
the source or of the filter they are. The functions of this module cut and join
traces exactly as statements are cut and joined, deciding by the text alone;
without the origins each of them is the function on texts. So a trace of a count
or page statement tells for every placeholder in it what it stands for.
-/
namespace PagedQuery

/-- The placeholder of the source or of the filter with the given number, from zero on. -/
inductive Origin where
  | source (k : Nat)
  | filter (k : Nat)
  deriving DecidableEq, Repr

/-- A character, with its origin when it is a placeholder that a caller wrote. -/
structure Mark where
  char : Char
  origin : Option Origin := none
  deriving DecidableEq, Repr

abbrev Trace := List Mark

namespace Trace

def text (m : Trace) : Text := m.map Mark.char

/-- A text that brings no placeholder of a caller. -/
def own (t : Text) : Trace := t.map fun c => { char := c }

/-- A text whose placeholders are numbered from `k` on, read from the state `q`. -/
def labelFrom (origin : Nat → Origin) (k : Nat) (q : Quote) : Text → Trace
  | [] => []
  | c :: t =>
    if q = .outside ∧ c = '?' then ⟨c, some (origin k)⟩ :: labelFrom origin (k + 1) (q.step c) t
    else ⟨c, none⟩ :: labelFrom origin k (q.step c) t

/-- A caller's text, with the origin of each of its placeholders. -/
def label (origin : Nat → Origin) (t : Text) : Trace := labelFrom origin 0 .outside t

/-- The origins of the placeholders in a trace that is read from the state `q`. -/
def placeholdersFrom (q : Quote) : Trace → List (Option Origin)
  | [] => []
  | m :: t =>
    (if q = .outside ∧ m.char = '?' then [m.origin] else []) ++ placeholdersFrom (q.step m.char) t

/-- The origins of the placeholders, one for each question mark outside quotes. -/
def placeholders (m : Trace) : List (Option Origin) := placeholdersFrom .outside m

def trimEndBy (drop : Char → Bool) (m : Trace) : Trace :=
  (m.reverse.dropWhile fun x => drop x.char).reverse

def trimBy (drop : Char → Bool) (m : Trace) : Trace :=
  trimEndBy drop (m.dropWhile fun x => drop x.char)

def trim (m : Trace) : Trace := trimBy Text.isBlank m

def trimEnd (m : Trace) : Trace := trimEndBy Text.isBlank m

def bareSource (m : Trace) : Trace := trimEnd (trimEndBy (· = ';') (trim m))

def selectAll (m : Trace) : Trace := own "SELECT * FROM ".toList ++ m

def parenthesized (m : Trace) : Trace := own ['('] ++ m ++ own [')']

def derivedTable (d : Dialect) (m : Trace) (tableAlias : Text) : Trace :=
  own "(".toList ++ m ++ own (") ".toList ++ d.derivedName tableAlias)

def base (r : Request) (profile : Profile) : Except PlanError Trace :=
  let source := bareSource (label .source r.source)
  if profile.hasSelect then
    if profile.hasFrom then .ok source else .error (.missingFrom source.text)
  else if Text.startsWith "FROM ".toList source.text then .ok (own "SELECT * ".toList ++ source)
  else if source.text.isEmpty then
    (Statement.requiredTable r "<empty source>".toList).map fun table => selectAll (own table)
  else if Statement.isTableName source.text then .ok (selectAll source)
  else
    (Statement.requiredTable r source.text).map fun table =>
      selectAll (own table) ++ own Keyword.whereClause ++ source

def head (m : Trace) (clauses : Clauses) : Trace :=
  match clauses.whereAt with
  | none => trimEnd (m.take clauses.tailAt) ++ own Statement.neutralWhere
  | some whereAt =>
    let body := trim ((m.take clauses.tailAt).drop clauses.bodyAt)
    if (Text.topLevel? Keyword.or 0 body.text).isSome then
      m.take whereAt ++ own Keyword.whereClause ++ parenthesized body
    else trimEnd (m.take clauses.tailAt)

def withCondition (m : Trace) (clauses : Clauses) : Trace :=
  if clauses.whereAt.isNone ∧ clauses.tailAt < m.text.length then
    trimEnd (m.take clauses.tailAt) ++ own Statement.neutralWhere ++ m.drop clauses.tailAt
  else m

def restrictSetOperation (d : Dialect) (m : Trace) (fragment : Text) : Trace :=
  if fragment.isEmpty then m
  else
    selectAll (derivedTable d m Statement.sourceAlias) ++ own Keyword.whereClause ++
      label .filter fragment

def restrict (m : Trace) (clauses : Clauses) (fragment : Text) : Trace :=
  if fragment.isEmpty then withCondition m clauses
  else
    head m clauses ++ own " AND ".toList ++ parenthesized (label .filter fragment) ++
      m.drop clauses.tailAt

def ofRequest (d : Dialect) (r : Request) (profile : Profile) (fragment : Text) :
    Except PlanError Trace :=
  match base r profile with
  | .error e => .error e
  | .ok m =>
    if profile.hasSetOperation then .ok (restrictSetOperation d m fragment)
    else
      match Clauses.of? m.text with
      | none => .error (.missingFrom m.text)
      | some clauses => .ok (restrict m clauses fragment)

def withoutOrder? (m : Trace) : Option Trace :=
  match Text.topLevel? Keyword.orderBy 0 m.text with
  | none => some m
  | some orderAt =>
    let keysAt := orderAt + Keyword.orderBy.length
    let endAt := (Text.firstTopLevel? Keyword.limits keysAt m.text).getD m.text.length
    if 0 < Placeholder.count ((m.text.take endAt).drop orderAt) then none
    else if Text.hasTopLevel Keyword.rowLimits keysAt m.text then none
    else some (m.take orderAt ++ m.drop endAt)

def countDirectly? (m : Trace) : Option Trace :=
  match Text.topLevel? Keyword.fromClause 0 m.text with
  | none => none
  | some fromAt =>
    if 0 < Placeholder.count (m.text.take fromAt) ∨
        Profile.mentionsAny Profile.subqueryOpenings (m.text.drop fromAt) ∨
        Text.hasTopLevel Keyword.limits fromAt m.text then none
    else some (own "SELECT COUNT(*)".toList ++ m.drop fromAt)

def countWrapped (d : Dialect) (tableAlias : Text) (m : Trace) : Trace :=
  own "SELECT COUNT(*) FROM ".toList ++ derivedTable d m tableAlias

def count (d : Dialect) (tableAlias : Text) (profile : Profile) (m : Trace) : Trace :=
  match withoutOrder? m with
  | none => countWrapped d tableAlias m
  | some stripped =>
    if profile.isComplex then countWrapped d tableAlias stripped
    else (countDirectly? stripped).getD (countWrapped d tableAlias stripped)

def unlimited (d : Dialect) (m : Trace) : Trace :=
  if Text.hasTopLevel Keyword.rowLimits 0 m.text then
    selectAll (derivedTable d m Statement.pageAlias)
  else m

/-- The ordered statement between what cuts its rows down to the window. -/
def limited (limit : LimitSyntax) (w : Window) (m locking : Trace) : Trace :=
  match limit with
  | .limitOffset | .offsetFetch => m ++ own (Statement.limited limit w [] []) ++ locking
  | .rowNum =>
    own "SELECT * FROM (SELECT row_.*, ROWNUM rownum_ FROM (".toList ++ m ++
      own (") row_ WHERE ROWNUM <= ".toList ++ Statement.word w.last ++
        ") WHERE rownum_ > ".toList ++ Statement.word w.offset)

def page (d : Dialect) (keys : List Text) (w : Window) (m : Trace) : Except PlanError Trace :=
  let m := unlimited d m
  let hasOrder := (Text.topLevel? Keyword.orderBy 0 m.text).isSome
  let lockAt := (Text.topLevel? Keyword.forUpdate 0 m.text).getD m.text.length
  let locking := m.drop lockAt
  if ¬(text locking).isEmpty ∧ ¬d.locksPages then .error (.unsupportedLocking d m.text)
  else
    .ok (limited d.limitSyntax w
      (trimEnd (m.take lockAt) ++ own (Statement.addedOrder d hasOrder keys)) locking)

@[simp] theorem text_append (m n : Trace) : (m ++ n).text = m.text ++ n.text := by simp [text]

@[simp] theorem text_take (m : Trace) (i : Nat) : text (m.take i) = m.text.take i := by
  simp [text]

@[simp] theorem text_drop (m : Trace) (i : Nat) : text (m.drop i) = m.text.drop i := by
  simp [text]

@[simp] theorem text_own (t : Text) : (own t).text = t := by simp [text, own, Function.comp_def]

theorem text_labelFrom (origin : Nat → Origin) (k : Nat) (q : Quote) (t : Text) :
    (labelFrom origin k q t).text = t := by
  induction t generalizing k q with
  | nil => rfl
  | cons c t ih =>
    rw [labelFrom]
    split
    · exact congrArg (c :: ·) (ih (k + 1) (q.step c))
    · exact congrArg (c :: ·) (ih k (q.step c))

@[simp] theorem text_label (origin : Nat → Origin) (t : Text) : (label origin t).text = t :=
  text_labelFrom origin 0 .outside t

@[simp] theorem text_trimEndBy (drop : Char → Bool) (m : Trace) :
    (trimEndBy drop m).text = Text.trimEndBy drop m.text := by
  simp only [trimEndBy, Text.trimEndBy, text, ← List.map_reverse,
    List.dropWhile_map, Function.comp_def]

@[simp] theorem text_trimBy (drop : Char → Bool) (m : Trace) :
    (trimBy drop m).text = Text.trimBy drop m.text := by
  rw [trimBy, Text.trimBy, text_trimEndBy]
  simp only [text, List.dropWhile_map, Function.comp_def]

@[simp] theorem text_trim (m : Trace) : (trim m).text = Text.trim m.text := text_trimBy _ m

@[simp] theorem text_trimEnd (m : Trace) : (trimEnd m).text = Text.trimEnd m.text :=
  text_trimEndBy _ m

@[simp] theorem text_bareSource (m : Trace) :
    (bareSource m).text = Statement.bareSource m.text := by
  simp only [bareSource, Statement.bareSource, text_trimEnd, text_trimEndBy, text_trim]

@[simp] theorem text_selectAll (m : Trace) : (selectAll m).text = Statement.selectAll m.text := by
  unfold selectAll Statement.selectAll
  rw [text_append, text_own]

@[simp] theorem text_parenthesized (m : Trace) :
    (parenthesized m).text = Predicate.parenthesized m.text := by
  simp [parenthesized, Predicate.parenthesized]

@[simp] theorem text_derivedTable (d : Dialect) (m : Trace) (tableAlias : Text) :
    (derivedTable d m tableAlias).text = d.derivedTable m.text tableAlias := by
  simp only [derivedTable, Dialect.derivedTable, text_append, text_own, List.append_assoc]

theorem text_base (r : Request) (profile : Profile) :
    (base r profile).map text = Statement.base r profile := by
  simp only [base, Statement.base, text_bareSource, text_label]
  split
  · split
    · simp only [Except.map, text_bareSource, text_label]
    · rfl
  split
  · simp only [Except.map, text_append, text_own, text_bareSource, text_label]
  split
  · cases Statement.requiredTable r "<empty source>".toList <;>
      simp only [Except.map, text_selectAll, text_own]
  split
  · simp only [Except.map, text_selectAll, text_bareSource, text_label]
  · cases Statement.requiredTable r (Statement.bareSource r.source) <;>
      simp only [Except.map, text_append, text_selectAll, text_own, text_bareSource, text_label]

@[simp] theorem text_head (m : Trace) (clauses : Clauses) :
    (head m clauses).text = Statement.head m.text clauses := by
  cases hw : clauses.whereAt with
  | none => simp only [head, Statement.head, hw, text_append, text_trimEnd, text_take, text_own]
  | some whereAt =>
    simp only [head, Statement.head, hw, text_trim, text_take, text_drop]
    split <;> simp only [text_append, text_trimEnd, text_take, text_drop, text_own,
      text_parenthesized, text_trim]

@[simp] theorem text_withCondition (m : Trace) (clauses : Clauses) :
    (withCondition m clauses).text = Statement.withCondition m.text clauses := by
  simp only [withCondition, Statement.withCondition]
  split <;> simp only [text_append, text_trimEnd, text_take, text_drop, text_own]

theorem text_restrictSetOperation (d : Dialect) (m : Trace) (parameters : List Value)
    (f : Fragment) : (restrictSetOperation d m f.text).text =
      (Statement.restrictSetOperation d m.text parameters f).text := by
  simp only [restrictSetOperation, Statement.restrictSetOperation]
  split <;> simp only [text_append, text_selectAll, text_derivedTable, text_own, text_label]

theorem text_restrict (m : Trace) (clauses : Clauses) (parameters : List Value) (f : Fragment) :
    (restrict m clauses f.text).text =
      (Statement.restrict m.text clauses parameters f).text := by
  simp only [restrict, Statement.restrict]
  split <;> simp only [text_append, text_withCondition, text_head, text_parenthesized, text_drop,
    text_own, text_label]

/-- The traced statement of a request is its statement. -/
theorem text_ofRequest (d : Dialect) (r : Request) (profile : Profile) (f : Fragment) :
    (ofRequest d r profile f.text).map text =
      (Statement.ofRequest d r profile f).map Statement.text := by
  rw [ofRequest, Statement.ofRequest, ← text_base]
  cases base r profile with
  | error e => rfl
  | ok m =>
    have hok : (Except.ok m : Except PlanError Trace).map text = .ok m.text := rfl
    rw [hok]
    by_cases hset : profile.hasSetOperation = true
    · simp only [if_pos hset]
      exact congrArg Except.ok (text_restrictSetOperation d m r.parameters f)
    · simp only [if_neg hset]
      cases Clauses.of? m.text with
      | none => rfl
      | some clauses => exact congrArg Except.ok (text_restrict m clauses r.parameters f)

theorem text_withoutOrder? (m : Trace) :
    (withoutOrder? m).map text = Statement.withoutOrder? m.text := by
  cases ho : Text.topLevel? Keyword.orderBy 0 m.text with
  | none => simp only [withoutOrder?, Statement.withoutOrder?, ho, Option.map_some]
  | some orderAt =>
    simp only [withoutOrder?, Statement.withoutOrder?, ho]
    split
    · rfl
    · split
      · rfl
      · simp only [Option.map_some, text_append, text_take, text_drop]

theorem text_countDirectly? (m : Trace) :
    (countDirectly? m).map text = Statement.countDirectly? m.text := by
  cases hf : Text.topLevel? Keyword.fromClause 0 m.text with
  | none => simp only [countDirectly?, Statement.countDirectly?, hf, Option.map_none]
  | some fromAt =>
    simp only [countDirectly?, Statement.countDirectly?, hf]
    split
    · rfl
    · simp only [Option.map_some, text_append, text_own, text_drop]

@[simp] theorem text_countWrapped (d : Dialect) (tableAlias : Text) (m : Trace) :
    (countWrapped d tableAlias m).text = Statement.countWrapped d tableAlias m.text := by
  unfold countWrapped Statement.countWrapped
  rw [text_append, text_own, text_derivedTable]

theorem text_count (d : Dialect) (tableAlias : Text) (profile : Profile) (m : Trace) :
    (count d tableAlias profile m).text = Statement.count d tableAlias profile m.text := by
  rw [count, Statement.count, ← text_withoutOrder?]
  cases withoutOrder? m with
  | none => simp only [Option.map_none, text_countWrapped]
  | some stripped =>
    simp only [Option.map_some]
    split
    · exact text_countWrapped d tableAlias stripped
    · rw [← text_countDirectly?]
      cases countDirectly? stripped with
      | none => simp only [Option.map_none, Option.getD_none, text_countWrapped]
      | some counted => rfl

@[simp] theorem text_unlimited (d : Dialect) (m : Trace) :
    (unlimited d m).text = Statement.unlimited d m.text := by
  simp only [unlimited, Statement.unlimited]
  split <;> simp only [text_selectAll, text_derivedTable]

@[simp] theorem text_limited (limit : LimitSyntax) (w : Window) (m locking : Trace) :
    (limited limit w m locking).text = Statement.limited limit w m.text locking.text := by
  cases limit <;> unfold limited Statement.limited <;>
    simp only [text_append, text_own, List.nil_append, List.append_nil, List.append_assoc]

/-- The traced page statement is the page statement. -/
theorem text_page (d : Dialect) (keys : List Text) (w : Window) (m : Trace) :
    (page d keys w m).map text = Statement.page d keys w m.text := by
  simp only [page, Statement.page, text_unlimited, text_drop]
  split
  · rfl
  · simp only [Except.map, text_limited, text_append, text_trimEnd, text_take, text_own,
      text_drop, text_unlimited]

end Trace

end PagedQuery
