import PagedQuery.Url.Basic

/-!
# Hosts

An IPv4 address is four numbers up to 255 without zeros in front, with points
between them. An IPv6 address is eight groups of up to four hexadecimal digits
with colons between them; an IPv4 address may stand for the last two groups, and
two colons for any groups that are all zero, one at least. A host is an IPv6
address in brackets, or any text without certain characters.
-/
namespace PagedQuery.Url

def isOctet (t : Text) : Bool :=
  t ≠ [] && t.all Char.isDigit && (t.length = 1 || t.head? ≠ some '0') &&
    Text.digitsValue 0 t ≤ 255

def isIpv4 (t : Text) : Bool :=
  let octets := Text.parts '.' t
  octets.length = 4 && octets.all isOctet

def isGroup (t : Text) : Bool :=
  t ≠ [] && t.length ≤ 4 && t.all fun c => (Text.digitIn? 16 c).isSome

/-- Number of groups that the parts between colons stand for; an IPv4 address may be the last. -/
def groups? : List Text → Option Nat
  | [] => some 0
  | [last] => if isGroup last then some 1 else if isIpv4 last then some 2 else none
  | group :: more => if isGroup group then (groups? more).map (1 + ·) else none

/-- The texts in front of and after the first two colons in a row. -/
def cutAtGap : Text → Option (Text × Text)
  | ':' :: ':' :: t => some ([], t)
  | c :: t => (cutAtGap t).map fun (front, back) => (c :: front, back)
  | [] => none

def colonParts (t : Text) : List Text := if t = [] then [] else Text.parts ':' t

def isIpv6 (t : Text) : Bool :=
  match cutAtGap t with
  | none => groups? (colonParts t) = some 8
  | some (front, back) =>
    match groups? (colonParts front), groups? (colonParts back) with
    | some m, some n => m + n ≤ 7 && (colonParts front).all isGroup
    | _, _ => false

/-- A character that no host may have. -/
def isForbidden (c : Char) : Bool :=
  ['\x00', '\t', '\n', '\r', ' ', '#', '/', ':', '<', '>', '?', '@', '[', '\\', ']', '^',
    '|'].contains c

/-- What is wrong with a host. -/
def hostFault? (host : Text) : Option Fault :=
  if host.head? = some '[' then
    if host.getLast? = some ']' ∧ isIpv6 host.tail.dropLast then none else some .invalidIpv6
  else if host.any isForbidden then some .invalidHostCharacter
  else none

end PagedQuery.Url
