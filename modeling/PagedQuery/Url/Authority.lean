import PagedQuery.Url.Host

/-!
# Users, hosts and ports

What stands after the two slashes of a URL up to a slash, a question mark or a
number sign. The last `@` in it ends the user and the password, which begins
after the first colon. The host ends at a colon outside brackets; after the
colon comes the port. A user or a password asks for a host, and so does a port.
-/
namespace PagedQuery.Authority

/-- A character that ends what is said about user, host and port. -/
def ends (c : Char) : Bool := c = '/' || c = '?' || c = '#'

def credentials? (t : Text) : Option Text :=
  if t.any (· = '@') then some ((t.reverse.dropWhile (· ≠ '@')).tail.reverse) else none

def hostText (inBrackets : Bool) : Text → Text
  | [] => []
  | c :: t =>
    if ends c ∨ (c = ':' ∧ ¬inBrackets) then []
    else c :: hostText (if c = '[' then true else if c = ']' then false else inBrackets) t

/-- The port that digits at the beginning of a text name, and the text after them. -/
def readPort (t : Text) : Except Url.Fault (Option UInt16 × Text) :=
  let digits := t.takeWhile Char.isDigit
  let rest := t.drop digits.length
  let number := Text.digitsValue 0 digits
  if 0xFFFF < number ∨ rest.head?.any (fun c => !ends c && c ≠ '\\') then .error .invalidPort
  else .ok (if digits = [] then none else some (UInt16.ofNat number), rest)

/-- The port after a host, if a colon follows the host, and the text after it. -/
def readPortAfter (host : Text) : Text → Except Url.Fault (Option UInt16 × Text)
  | ':' :: t => if host = [] then .error .emptyHost else readPort t
  | t => .ok (none, t)

/-- Host and port at the beginning of a text, after the given user and password. -/
def readLocation (user password t : Text) : Except Url.Fault (Authority × Text) := do
  let host := hostText false t
  if let some fault := Url.hostFault? host then throw fault
  let (port, rest) ← readPortAfter host (t.drop host.length)
  if host = [] ∧ (user ≠ [] ∨ password ≠ []) then throw .emptyHost
  return ({ user, password, host, port }, rest)

/-- User, password, host and port at the beginning of a text, and the text after them. -/
def ofText (t : Text) : Except Url.Fault (Authority × Text) :=
  match credentials? (t.takeWhile (!ends ·)) with
  | none => readLocation [] [] t
  | some credentials =>
    let rest := t.drop (credentials.length + 1)
    if credentials = [] ∧ rest.head?.any ends then .error .emptyHost
    else
      readLocation (credentials.takeWhile (· ≠ ':')) (credentials.dropWhile (· ≠ ':')).tail rest

end PagedQuery.Authority
