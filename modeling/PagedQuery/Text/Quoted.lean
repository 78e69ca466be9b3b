import PagedQuery.Text.Visible

/-!
# Texts in quotation marks

How a message shows a text, between quotation marks. Quotation marks and
backslashes in it are escaped, and so are characters that would not be visible:
some by a letter, the others by their code points in braces.
-/
namespace PagedQuery.Text

def shownChar (c : Char) : Text :=
  if c = '"' then ['\\', '"']
  else if c = '\\' then ['\\', '\\']
  else if c = '\x00' then ['\\', '0']
  else if c = '\t' then ['\\', 't']
  else if c = '\n' then ['\\', 'n']
  else if c = '\r' then ['\\', 'r']
  else if isVisible c then [c]
  else '\\' :: 'u' :: '\x7b' :: Nat.toDigits 16 c.toNat ++ ['\x7d']

/-- The text between quotation marks. -/
def shown (t : Text) : Text := '"' :: t.flatMap shownChar ++ ['"']

end PagedQuery.Text
