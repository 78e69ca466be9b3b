import PagedQuery.Window

/-!
# Pages

A page holds the rows of one window and what a caller needs to move on: the
number and size of the page, the number of all rows and of all pages. A window
without rows has no pages. The rows of a page can be replaced one after the
other, by a function that may keep a state.
-/
namespace PagedQuery

structure Page (ρ : Type) where
  content : List ρ
  page : UInt64
  size : UInt64
  totalElements : UInt64
  totalPages : UInt64
  deriving DecidableEq, Repr

namespace Page

variable {σ ρ τ : Type}

/-- Number of pages of the given size that hold all rows; the last one may be short. -/
def pagesFor (total size : UInt64) : UInt64 :=
  if size = 0 then 0 else total / size + (if total % size = 0 then 0 else 1)

def of (content : List ρ) (w : Window) (total : UInt64) : Page ρ :=
  { content
    page := w.page
    size := w.pageSize
    totalElements := total
    totalPages := pagesFor total w.pageSize }

def empty (w : Window) : Page ρ := of [] w 0

def isEmpty (p : Page ρ) : Bool := p.content.isEmpty

def hasNext (p : Page ρ) : Bool := p.page < p.totalPages

def hasPrevious (p : Page ρ) : Bool := 1 < p.page

def map (f : ρ → τ) (p : Page ρ) : Page τ := { p with content := p.content.map f }

/-- The rows replaced from the first to the last, each in the state that the one before it left. -/
def replaceAll (f : σ → ρ → τ × σ) (state : σ) : List ρ → List τ × σ
  | [] => ([], state)
  | row :: rows =>
    let (replaced, state) := f state row
    let (others, state) := replaceAll f state rows
    (replaced :: others, state)

/-- The page with every row replaced by a function that may change a state. -/
def mapState (f : σ → ρ → τ × σ) (state : σ) (p : Page ρ) : Page τ × σ :=
  let (content, state) := replaceAll f state p.content
  ({ p with content }, state)

@[simp] theorem map_totalPages (f : ρ → τ) (p : Page ρ) : (p.map f).totalPages = p.totalPages := rfl

@[simp] theorem map_hasNext (f : ρ → τ) (p : Page ρ) : (p.map f).hasNext = p.hasNext := rfl

@[simp] theorem map_hasPrevious (f : ρ → τ) (p : Page ρ) :
    (p.map f).hasPrevious = p.hasPrevious := rfl

@[simp] theorem map_isEmpty (f : ρ → τ) (p : Page ρ) : (p.map f).isEmpty = p.isEmpty := by
  simp [map, isEmpty]

end Page

end PagedQuery
