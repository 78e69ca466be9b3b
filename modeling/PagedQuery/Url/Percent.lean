import PagedQuery.Text.Utf8

/-!
# Percent signs in URLs

A percent sign with two hexadecimal digits after it stands for a byte; any other
percent sign, and every other character, stands for itself.
-/
namespace PagedQuery.Url

/-- The bytes that a part of a URL stands for. -/
def bytes : Text → List UInt8
  | [] => []
  | '%' :: a :: b :: t =>
    match Text.valueIn? 16 [a, b] with
    | some byte => UInt8.ofNat byte :: bytes t
    | none => String.utf8EncodeChar '%' ++ bytes (a :: b :: t)
  | c :: t => String.utf8EncodeChar c ++ bytes t

/-- The text that a part of a URL stands for, if its bytes are one. -/
def decoded (t : Text) : Except Text.Utf8Fault Text := Text.ofUtf8 (bytes t)

end PagedQuery.Url
