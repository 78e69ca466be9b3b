import PagedQuery.Page
import PagedQuery.Proofs.Window
import PagedQuery.Settings.Basic

/-!
# Pages and their windows

What a page tells about its place among all pages is meant in exact integers, and a
page is made of words. The number of pages is no more than the number of rows, so it
is a word. The end of a window stops at the largest word, which is no smaller than
the number of all rows, so it tells as well as the exact end whether rows follow. All
of it depends on the window and on the number of rows and not on what the rows are.
-/
namespace PagedQuery

/-- Settings that have a planner pass their check, and the planner has their sizes. -/
theorem PagingSettings.of_planner {s : PagingSettings} {p : Planner} (h : s.planner = .ok p) :
    s.fault? = none ∧ p.options = s.options := by
  unfold PagingSettings.planner at h
  split at h
  · exact absurd h (by simp)
  · split at h
    · exact absurd h (by simp)
    · rename_i hfault
      exact ⟨hfault, (Except.ok.inj h) ▸ rfl⟩

namespace Page

variable {σ ρ τ : Type}

theorem lt_pagesFor_iff {total size : UInt64} (hsize : 1 ≤ size.toNat) (n : ℕ) :
    n < (pagesFor total size).toNat ↔ n * size.toNat < total.toNat := by
  have hne : size ≠ 0 := by
    rintro rfl
    exact absurd hsize (by decide)
  have hzero : total % size = 0 ↔ total.toNat % size.toNat = 0 := by
    rw [← UInt64.toNat_inj, UInt64.toNat_mod, UInt64.toNat_zero]
  rw [pagesFor, if_neg hne]
  by_cases hmod : total % size = 0
  · rw [if_pos hmod, UInt64.add_zero, UInt64.toNat_div]
    conv_rhs => rw [← Nat.div_mul_cancel (Nat.dvd_of_mod_eq_zero (hzero.mp hmod))]
    exact (Nat.mul_lt_mul_right hsize).symm
  · have hrest := mt hzero.mpr hmod
    have htwo : 2 ≤ size.toNat := by
      by_contra hlt
      rw [show size.toNat = 1 by omega, Nat.mod_one] at hrest
      exact hrest rfl
    have hhalf : total.toNat / size.toNat ≤ total.toNat / 2 := Nat.div_le_div_left htwo (by decide)
    have htotal := total.toNat_lt
    have hadd : (total / size + 1).toNat = total.toNat / size.toNat + 1 := by
      rw [UInt64.toNat_add, UInt64.toNat_div, UInt64.toNat_one, Nat.mod_eq_of_lt (by omega)]
    have hexact : n * size.toNat ≠ total.toNat := fun h => hrest (h ▸ Nat.mul_mod_left n _)
    rw [if_neg hmod, hadd, Nat.lt_succ_iff, Nat.le_div_iff_mul_le hsize]
    omega

/-- What a page tells agrees with its window and with the number of all rows. -/
structure Fits (w : Window) (total : UInt64) (p : Page ρ) : Prop where
  page_eq : p.page = w.page
  size_eq : p.size = w.pageSize
  totalElements_eq : p.totalElements = total
  /-- The pages have a place for every row, and one page less has not. -/
  rows_le : total.toNat ≤ p.totalPages.toNat * p.size.toNat
  lt_rows : total ≠ 0 → ((p.totalPages.toNat : ℤ) - 1) * p.size.toNat < total.toNat
  totalPages_eq_zero_iff : p.totalPages = 0 ↔ total = 0
  /-- Rows follow the page, as its window counts them and as they are counted exactly. -/
  hasNext_iff_last : p.hasNext = true ↔ w.last < total
  hasNext_iff : p.hasNext = true ↔ p.page.toNat * p.size.toNat < total.toNat
  hasPrevious_iff : p.hasPrevious = true ↔ 1 < w.page
  /-- Some row has an index in the window exactly when there are so many pages. -/
  meets_iff : (∃ i, w.offset.toNat ≤ i ∧ i < w.last.toNat ∧ i < total.toNat) ↔
    w.page ≤ p.totalPages

/-- The rows of a page do not matter to what it tells. -/
theorem Fits.of_metadata {w : Window} {total : UInt64} {p : Page ρ} {q : Page τ} (h : p.Fits w total)
    (hpage : q.page = p.page) (hsize : q.size = p.size)
    (helements : q.totalElements = p.totalElements) (hpages : q.totalPages = p.totalPages) :
    q.Fits w total := by
  have hnext : q.hasNext = p.hasNext := by rw [hasNext, hasNext, hpage, hpages]
  have hprevious : q.hasPrevious = p.hasPrevious := by rw [hasPrevious, hasPrevious, hpage]
  exact
    { page_eq := hpage.trans h.page_eq
      size_eq := hsize.trans h.size_eq
      totalElements_eq := helements.trans h.totalElements_eq
      rows_le := by rw [hpages, hsize]; exact h.rows_le
      lt_rows := by rw [hpages, hsize]; exact h.lt_rows
      totalPages_eq_zero_iff := by rw [hpages]; exact h.totalPages_eq_zero_iff
      hasNext_iff_last := by rw [hnext]; exact h.hasNext_iff_last
      hasNext_iff := by rw [hnext, hpage, hsize]; exact h.hasNext_iff
      hasPrevious_iff := by rw [hprevious]; exact h.hasPrevious_iff
      meets_iff := by rw [hpages]; exact h.meets_iff }

section

variable (page requested : Int64) (default maximum total : UInt64)

theorem last_lt_iff :
    (Window.of page requested default maximum).last < total ↔
      (Window.pageNumber page).toNat * (Window.size requested default maximum).toNat <
        total.toNat := by
  have htotal := total.toNat_lt
  rw [UInt64.lt_iff_toNat_lt, Window.last_toNat]
  omega

/-- A window holds the index of a row exactly when the pages in front of it leave a row over. -/
theorem exists_row_iff :
    (∃ i, (Window.of page requested default maximum).offset.toNat ≤ i ∧
      i < (Window.of page requested default maximum).last.toNat ∧ i < total.toNat) ↔
      ((Window.pageNumber page).toNat - 1) * (Window.size requested default maximum).toNat <
        total.toNat := by
  have htotal := total.toNat_lt
  have hsize := Window.size_pos requested default maximum
  obtain ⟨n, hn⟩ := Nat.exists_eq_add_of_le' (Window.pageNumber_pos page)
  rw [Window.offset_toNat, Window.last_toNat, hn, Nat.add_sub_cancel, Nat.succ_mul]
  constructor
  · rintro ⟨i, hfirst, -, hrow⟩
    omega
  · intro hlt
    exact ⟨_, Nat.min_le_left _ _, by omega, hlt⟩

theorem fits_of (content : List ρ) :
    (Page.of content (Window.of page requested default maximum) total).Fits
      (Window.of page requested default maximum) total := by
  have hsize := Window.size_pos requested default maximum
  have hpage := Window.pageNumber_pos page
  have hpages : ∀ n, n < (pagesFor total _).toNat ↔ _ := lt_pagesFor_iff hsize
  have hnone : (pagesFor total (Window.size requested default maximum)).toNat = 0 ↔
      total.toNat = 0 := by
    have h := hpages 0
    rw [Nat.zero_mul] at h
    omega
  have hnext : (Page.of content (Window.of page requested default maximum) total).hasNext = true ↔
      (Window.pageNumber page).toNat * (Window.size requested default maximum).toNat <
        total.toNat := by
    rw [hasNext, decide_eq_true_iff, UInt64.lt_iff_toNat_lt]
    exact hpages _
  exact
    { page_eq := rfl
      size_eq := rfl
      totalElements_eq := rfl
      rows_le := Nat.le_of_not_lt fun h => Nat.lt_irrefl _ ((hpages _).mpr h)
      lt_rows := by
        intro htotal
        obtain ⟨n, hn⟩ := Nat.exists_eq_succ_of_ne_zero
          fun h => htotal (UInt64.toNat_inj.mp (hnone.mp h))
        have hless := (hpages n).mp (hn ▸ Nat.lt_succ_self n)
        change ((pagesFor total (Window.size requested default maximum)).toNat - 1 : ℤ) * _ < _
        rw [hn, Nat.cast_succ, Int.add_sub_cancel]
        exact_mod_cast hless
      totalPages_eq_zero_iff := by
        rw [← UInt64.toNat_inj, ← UInt64.toNat_inj]
        exact hnone
      hasNext_iff_last := hnext.trans (last_lt_iff page requested default maximum total).symm
      hasNext_iff := hnext
      hasPrevious_iff := decide_eq_true_iff
      meets_iff := by
        rw [exists_row_iff, ← hpages, UInt64.le_iff_toNat_le]
        change _ ↔ (Window.pageNumber page).toNat ≤
          (pagesFor total (Window.size requested default maximum)).toNat
        omega }

/-- A request for no rows or less gets the default size, if it is a size that the maximum allows. -/
theorem size_of_default {requested : Int64} {default maximum : UInt64} (hrequested : requested ≤ 0)
    (hdefault : default ≠ 0) (hmaximum : maximum ≠ 0 → default ≤ maximum) :
    Window.size requested default maximum = default := by
  have hle : requested.toInt ≤ 0 := by
    rw [Int64.le_iff_toInt_le, Int64.toInt_zero] at hrequested
    exact hrequested
  have hpos : 1 ≤ default.toNat := by
    rw [← UInt64.pos_iff_ne_zero, UInt64.lt_iff_toNat_lt, UInt64.toNat_zero] at hdefault
    exact hdefault
  rw [← UInt64.toNat_inj, Window.size_toNat, Window.wanted, if_pos hle, Nat.max_eq_left hpos]
  split
  · rename_i hcap
    have hne : maximum ≠ 0 := by
      rintro rfl
      exact absurd hcap (by decide)
    exact Nat.min_eq_left (UInt64.le_iff_toNat_le.mp (hmaximum hne))
  · rfl

end

/-- The state in which a row behind the given ones is replaced. -/
def stateAfter (f : σ → ρ → τ × σ) (state : σ) (rows : List ρ) : σ :=
  rows.foldl (fun state row => (f state row).2) state

theorem replaceAll_fst (f : σ → ρ → τ × σ) (state : σ) (rows : List ρ) :
    (replaceAll f state rows).1 =
      rows.mapIdx fun i row => (f (stateAfter f state (rows.take i)) row).1 := by
  induction rows generalizing state with
  | nil => rfl
  | cons row rows ih =>
    rw [replaceAll, List.mapIdx_cons]
    exact congrArg _ (ih (f state row).2)

/-- The replaced page tells the same, and its rows are those of the page, each replaced in its
place. -/
structure Replaced (w : Window) (total : UInt64) (content : List ρ) (replace : ℕ → ρ → τ)
    (p : Page τ) : Prop where
  fits : p.Fits w total
  length_eq : p.content.length = content.length
  row_eq : ∀ i, p.content[i]? = content[i]?.map (replace i)

/-- What a page of a window tells agrees with the window in exact integers, for all words, and keeps
to do so when the rows are replaced; settings that pass their check have a default size that a
request for no rows or less gets. -/
theorem agrees_with_window (page requested : Int64) (default maximum total : UInt64)
    (content : List ρ) :
    (Page.of content (Window.of page requested default maximum) total).Fits
        (Window.of page requested default maximum) total ∧
      (Page.of content (Window.of page requested default maximum) total).content = content ∧
      (∀ (τ : Type) (f : ρ → τ), Replaced (Window.of page requested default maximum) total content
        (fun _ row => f row)
        ((Page.of content (Window.of page requested default maximum) total).map f)) ∧
      (∀ (σ τ : Type) (f : σ → ρ → τ × σ) (state : σ),
        Replaced (Window.of page requested default maximum) total content
          (fun i row => (f (stateAfter f state (content.take i)) row).1)
          ((Page.of content (Window.of page requested default maximum) total).mapState f state).1) ∧
      (requested ≤ 0 → 1 ≤ default → (maximum = 0 ∨ default ≤ maximum) →
        (Window.of page requested default maximum).pageSize = default) ∧
      ∀ (s : PagingSettings) (p : Planner), s.planner = .ok p →
        ∀ r : Request, r.pageSize ≤ 0 → (p.window r).pageSize = s.defaultPageSize := by
  have hfits := fits_of page requested default maximum total content
  refine ⟨hfits, rfl, fun τ f => ⟨hfits.of_metadata rfl rfl rfl rfl, List.length_map f,
    fun i => List.getElem?_map⟩, fun σ τ f state => ⟨hfits.of_metadata rfl rfl rfl rfl, ?_, ?_⟩,
    fun hrequested hdefault hmaximum => ?_, fun s p hplanner r hrequested => ?_⟩
  · change (replaceAll f state content).1.length = _
    rw [replaceAll_fst, List.length_mapIdx]
  · intro i
    change (replaceAll f state content).1[i]? = _
    rw [replaceAll_fst, List.getElem?_mapIdx]
  · refine size_of_default hrequested ?_ fun hne => hmaximum.resolve_left hne
    rintro rfl
    exact absurd hdefault (by decide)
  · obtain ⟨hfault, hoptions⟩ := PagingSettings.of_planner hplanner
    obtain ⟨hdefault, hmaximum, -⟩ := s.fault?_eq_none_iff.mp hfault
    rw [Planner.window, hoptions]
    exact size_of_default hrequested hdefault hmaximum

/-- The last row that a word can count is on the third of these pages, which ends at the largest word. -/
example : let w := Window.of 3 0x7FFFFFFFFFFFFFFF 10 0
    w.last = 0xFFFFFFFFFFFFFFFF ∧
      (Page.of ["row"] w 0xFFFFFFFFFFFFFFFF).totalPages = 3 ∧
      (Page.of ["row"] w 0xFFFFFFFFFFFFFFFF).hasNext = false := by decide

end Page

end PagedQuery
