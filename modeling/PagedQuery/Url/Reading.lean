import PagedQuery.Url.Authority
import PagedQuery.Url.Path

/-!
# Reading URLs

Spaces and control characters at both ends of a text are no part of its URL, nor
are tabs and line ends anywhere. A scheme begins with a letter and ends before a
colon; the two slashes after it have to be there.
-/
namespace PagedQuery.Url

/-- A character that is no part of a URL. -/
def isLeftOut (c : Char) : Bool := c = '\t' || c = '\n' || c = '\r'

def isSchemeCharacter (c : Char) : Bool := c.isAlphanum || c = '+' || c = '-' || c = '.'

def afterScheme? (t : Text) : Option Text :=
  match t.dropWhile isSchemeCharacter with
  | ':' :: '/' :: '/' :: rest => if t.head?.any Char.isAlpha then some rest else none
  | _ => none

/-- The URL whose user, host, path and query are written in a text. -/
def ofParts (t : Text) : Except Fault Url :=
  (Authority.ofText t).map fun (authority, rest) =>
    let rest := rest.takeWhile (· ≠ '#')
    { authority
      path := normalPath (rest.takeWhile (· ≠ '?'))
      query := (rest.dropWhile (· ≠ '?')).tail }

def ofText (t : Text) : Except Fault Url :=
  match afterScheme? ((Text.trimBy (· ≤ ' ') t).filter (!isLeftOut ·)) with
  | some rest => ofParts rest
  | none => .error .relative

end PagedQuery.Url
