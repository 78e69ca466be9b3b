import PagedQuery.Lexical.Depth

/-!
# Keyword search

Keywords are looked for in the folded text, in which every ASCII white space
character is a space and ASCII letters are upper case; folding keeps every
position and every quotation mark and parenthesis. A keyword is written with
the spaces that must surround it, such as ` FROM `, and begins with a space.
`Text.topLevel?` finds its first occurrence that begins at the top level.
-/
namespace PagedQuery.Text

/-- The five ASCII white space characters; the vertical tab is not one of them. -/
def isAsciiSpace (c : Char) : Bool :=
  c = ' ' || c = '\t' || c = '\n' || c = '\x0c' || c = '\r'

/-- A white space character becomes a space, a lower-case ASCII letter upper case. -/
def foldChar (c : Char) : Char := if isAsciiSpace c then ' ' else c.toUpper

/-- The text as keyword search sees it. -/
def fold (t : Text) : Text := t.map foldChar

def contains (token : Text) : Text → Bool
  | [] => token.isEmpty
  | c :: t => token.isPrefixOf (c :: t) || contains token t

/-- The folded text has the token somewhere, in quotes or not. -/
def mentions (token : Text) (t : Text) : Bool := contains token (fold t)

/-- The folded text begins with the token, leading spaces apart. -/
def startsWith (token : Text) (t : Text) : Bool :=
  token.isPrefixOf ((fold t).dropWhile (· = ' '))

/-- The first position, `skip` or later, at which the keyword begins at the
top level, where the folded text begins at the place `p`. -/
def topLevelFrom? (keyword : Text) (p : Place) (skip : Nat) : Text → Option Nat
  | [] => none
  | c :: t =>
    if skip = 0 ∧ p.IsTop ∧ keyword.isPrefixOf (c :: t) then some 0
    else (topLevelFrom? keyword (p.step c) (skip - 1) t).map (· + 1)

def topLevel? (keyword : Text) (start : Nat) (t : Text) : Option Nat :=
  topLevelFrom? keyword .start start (fold t)

/-- The first top-level position of any of the keywords at or after `start`. -/
def firstTopLevel? (keywords : List Text) (start : Nat) (t : Text) : Option Nat :=
  (keywords.filterMap fun k => topLevel? k start t).min?

def hasTopLevel (keywords : List Text) (start : Nat) (t : Text) : Bool :=
  (firstTopLevel? keywords start t).isSome

theorem contains_iff {token t : Text} : contains token t = true ↔ token <:+: t := by
  induction t with
  | nil => simp [contains]
  | cons c t ih => simp [contains, ih, List.infix_cons_iff, List.isPrefixOf_iff_prefix]

@[simp] theorem fold_length (t : Text) : (fold t).length = t.length := by simp [fold]

theorem fold_append (s t : Text) : fold (s ++ t) = fold s ++ fold t := by simp [fold]

theorem topLevelFrom?_lt {keyword : Text} {p : Place} {skip : Nat} {t : Text} {i : Nat}
    (h : topLevelFrom? keyword p skip t = some i) : i < t.length := by
  induction t generalizing p skip i with
  | nil => simp [topLevelFrom?] at h
  | cons c t ih =>
    rw [topLevelFrom?] at h
    split at h
    · simp_all; omega
    · obtain ⟨j, hj, rfl⟩ := Option.map_eq_some_iff.mp h
      have := ih hj
      simp only [List.length_cons]
      omega

theorem topLevel?_lt {keyword : Text} {start : Nat} {t : Text} {i : Nat}
    (h : topLevel? keyword start t = some i) : i < t.length := by
  simpa using topLevelFrom?_lt h

end PagedQuery.Text
