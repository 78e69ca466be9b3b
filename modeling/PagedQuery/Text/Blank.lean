import PagedQuery.Text.Basic

/-!
# Blank characters and trimming

A character is blank when it has the Unicode property `White_Space`. The zero
width space, the byte order mark and the separators U+001C to U+001F are not
blank. Trimming takes the blank characters off the ends of a text.
-/
namespace PagedQuery.Text

/-- First and last code points of the stretches of `White_Space`. -/
def blankRanges : List (Nat × Nat) :=
  [(0x9, 0xD), (0x20, 0x20), (0x85, 0x85), (0xA0, 0xA0), (0x1680, 0x1680), (0x2000, 0x200A),
    (0x2028, 0x2029), (0x202F, 0x202F), (0x205F, 0x205F), (0x3000, 0x3000)]

/-- The character is white space in Unicode's sense. -/
def isBlank (c : Char) : Bool := blankRanges.any fun r => r.1 ≤ c.toNat && c.toNat ≤ r.2

def trim (t : Text) : Text := trimBy isBlank t

def trimEnd (t : Text) : Text := trimEndBy isBlank t

def isAllBlank (t : Text) : Bool := (trim t).isEmpty

theorem isBlank_space : isBlank ' ' = true := by decide

@[simp] theorem trim_nil : trim [] = [] := rfl

theorem trimEnd_prefix (t : Text) : trimEnd t <+: t := trimEndBy_prefix isBlank t

end PagedQuery.Text
