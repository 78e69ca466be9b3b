import PagedQuery.Text.Basic

/-!
# Page windows

A window is a page of a result by its number, its size and the rows before it.
Numbers are 64-bit words, and a product or sum that does not fit stops at the
largest word. A request for no page or less gets the first one, a request for
no rows or less gets the default size, at least one row, and a maximum other
than zero caps the size.
-/
namespace PagedQuery

namespace Word

/-- The word nearest to a natural number. -/
def saturated (n : Nat) : UInt64 := UInt64.ofNat (min n 0xFFFFFFFFFFFFFFFF)

/-- The positive part of a signed word. -/
def ofPositive (n : Int64) : UInt64 := UInt64.ofNat n.toInt.toNat

theorem saturated_toNat (n : Nat) : (saturated n).toNat = min n 0xFFFFFFFFFFFFFFFF := by
  rw [saturated, UInt64.toNat_ofNat']
  omega

theorem ofPositive_toNat (n : Int64) : (ofPositive n).toNat = n.toInt.toNat := by
  have := n.toInt_lt
  rw [ofPositive, UInt64.toNat_ofNat']
  omega

end Word

structure Window where
  page : UInt64
  pageSize : UInt64
  offset : UInt64
  deriving DecidableEq, Repr, Inhabited

namespace Window

/-- The page that is meant by a requested number. -/
def pageNumber (requested : Int64) : UInt64 := if requested ≤ 0 then 1 else Word.ofPositive requested

/-- The size that is meant by a requested size. -/
def size (requested : Int64) (default max : UInt64) : UInt64 :=
  let wanted := if requested ≤ 0 then Max.max default 1 else Word.ofPositive requested
  if 0 < max then min wanted max else wanted

def of (page pageSize : Int64) (default max : UInt64) : Window :=
  let number := pageNumber page
  let size := size pageSize default max
  { page := number
    pageSize := size
    offset := Word.saturated ((number - 1).toNat * size.toNat) }

/-- Number of the last row of the page, counted from one. -/
def last (w : Window) : UInt64 := Word.saturated (w.offset.toNat + w.pageSize.toNat)

end Window

end PagedQuery
