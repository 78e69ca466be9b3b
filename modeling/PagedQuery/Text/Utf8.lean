import PagedQuery.Text.Basic

/-!
# UTF-8

The bytes of a text, and the text of a row of bytes. A character is written as
a first byte, which tells how many bytes follow and between which bounds the
second one lies, and following bytes from 80 to BF. Bytes that begin no
character are taken off up to the first byte that does not fit; they are a
fault, or stand for the replacement character U+FFFD.
-/
namespace PagedQuery.Text

def utf8 (t : Text) : List UInt8 := t.flatMap String.utf8EncodeChar

/-- Bytes that are no character: so many from an index on, or all from it to the end. -/
inductive Utf8Fault where
  | invalid (size index : Nat)
  | incomplete (index : Nat)
  deriving DecidableEq, Repr

def Utf8Fault.message : Utf8Fault → Text
  | invalid size index =>
    "invalid utf-8 sequence of ".toList ++ ofNat size ++ " bytes from index ".toList ++ ofNat index
  | incomplete index => "incomplete utf-8 byte sequence from index ".toList ++ ofNat index

/-- What a first byte tells: how many bytes follow, and the bounds of the second byte. -/
structure Utf8Lead where
  following : Nat
  least : Nat := 0x80
  greatest : Nat := 0xBF

/-- What a byte tells if it is a first byte. -/
def Utf8Lead.of? (b : UInt8) : Option Utf8Lead :=
  let n := b.toNat
  if n < 0x80 then some { following := 0 }
  else if n < 0xC2 then none
  else if n < 0xE0 then some { following := 1 }
  else if n = 0xE0 then some { following := 2, least := 0xA0 }
  else if n = 0xED then some { following := 2, greatest := 0x9F }
  else if n < 0xF0 then some { following := 2 }
  else if n = 0xF0 then some { following := 3, least := 0x90 }
  else if n < 0xF4 then some { following := 3 }
  else if n = 0xF4 then some { following := 3, greatest := 0x8F }
  else none

/-- How many bytes at the beginning are the following bytes of a first byte. -/
def Utf8Lead.fitting (lead : Utf8Lead) (bytes : List UInt8) : Nat :=
  match lead.following, bytes with
  | following + 1, b :: t =>
    if lead.least ≤ b.toNat ∧ b.toNat ≤ lead.greatest then 1 + tail following t else 0
  | _, _ => 0
where
  /-- How many of so many bytes lie between 80 and BF. -/
  tail : Nat → List UInt8 → Nat
    | n + 1, b :: t => if 0x80 ≤ b.toNat ∧ b.toNat ≤ 0xBF then 1 + tail n t else 0
    | _, _ => 0

/-- The character with the given first and following bytes. -/
def utf8Char (first : UInt8) (following : List UInt8) : Char :=
  let start :=
    match following.length with
    | 0 => first.toNat
    | 1 => first.toNat % 0x20
    | 2 => first.toNat % 0x10
    | _ => first.toNat % 0x08
  Char.ofNat (following.foldl (fun code b => 0x40 * code + b.toNat % 0x40) start)

/-- The characters of a row of bytes from the given index on, and the faults between them.
So many bytes at the beginning belong to what is already taken off. -/
def utf8PiecesFrom (index taken : Nat) : List UInt8 → List (Except Utf8Fault Char)
  | [] => []
  | first :: rest =>
    match taken with
    | taken + 1 => utf8PiecesFrom (index + 1) taken rest
    | 0 =>
      match Utf8Lead.of? first with
      | none => .error (.invalid 1 index) :: utf8PiecesFrom (index + 1) 0 rest
      | some lead =>
        let n := lead.fitting rest
        if n = lead.following then
          .ok (utf8Char first (rest.take n)) :: utf8PiecesFrom (index + 1) n rest
        else if n = rest.length then [.error (.incomplete index)]
        else .error (.invalid (1 + n) index) :: utf8PiecesFrom (index + 1) n rest

/-- The characters of a row of bytes, and the faults between them. -/
def utf8Pieces (bytes : List UInt8) : List (Except Utf8Fault Char) := utf8PiecesFrom 0 0 bytes

/-- The text of a row of bytes, or its first fault. -/
def ofUtf8 (bytes : List UInt8) : Except Utf8Fault Text := (utf8Pieces bytes).mapM id

/-- The text of a row of bytes, in which every fault is a replacement character. -/
def ofUtf8Lossy (bytes : List UInt8) : Text :=
  (utf8Pieces bytes).map fun piece =>
    match piece with
    | .ok c => c
    | .error _ => '\uFFFD'

@[simp] theorem utf8_nil : utf8 [] = [] := rfl

theorem utf8_append (s t : Text) : utf8 (s ++ t) = utf8 s ++ utf8 t := by simp [utf8]

theorem length_utf8 (t : Text) : (utf8 t).length = utf8Size t := by
  induction t with
  | nil => rfl
  | cons c t ih =>
    rw [utf8Size_cons, ← ih, utf8, List.flatMap_cons, List.length_append,
      String.length_utf8EncodeChar]
    rfl

end PagedQuery.Text
