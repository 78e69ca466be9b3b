import PagedQuery.Json.Value

/-!
# Compact JSON text

The text of a value without blanks between its parts. In strings the quotation
mark, the backslash and the characters below U+0020 are escaped, the frequent
ones by a letter and the others by four hexadecimal digits; everything else
stands for itself.
-/
namespace PagedQuery.Value

def hexDigit (n : Nat) : Char := Nat.digitChar n

def escapeChar (c : Char) : Text :=
  if c = '"' then ['\\', '"']
  else if c = '\\' then ['\\', '\\']
  else if c = '\x08' then ['\\', 'b']
  else if c = '\x0c' then ['\\', 'f']
  else if c = '\n' then ['\\', 'n']
  else if c = '\r' then ['\\', 'r']
  else if c = '\t' then ['\\', 't']
  else if c.toNat < 0x20 then
    "\\u00".toList ++ [hexDigit (c.toNat / 16), hexDigit (c.toNat % 16)]
  else [c]

def quoted (t : Text) : Text := '"' :: t.flatMap escapeChar ++ ['"']

mutual

def compact : Value → Text
  | null => "null".toList
  | bool true => "true".toList
  | bool false => "false".toList
  | number n => n.text
  | text t => quoted t
  | array [] => "[]".toList
  | array (item :: items) => '[' :: compact item ++ compactItems items ++ [']']
  | object [] => ['\x7b', '\x7d']
  | object (field :: fields) =>
    '\x7b' :: compactField field ++ compactFields fields ++ ['\x7d']

/-- The further items of an array, each after a comma. -/
def compactItems : List Value → Text
  | [] => []
  | item :: items => ',' :: compact item ++ compactItems items

def compactField : Text × Value → Text
  | (key, value) => quoted key ++ ':' :: compact value

/-- The further fields of an object, each after a comma. -/
def compactFields : List (Text × Value) → Text
  | [] => []
  | field :: fields => ',' :: compactField field ++ compactFields fields

end

end PagedQuery.Value
