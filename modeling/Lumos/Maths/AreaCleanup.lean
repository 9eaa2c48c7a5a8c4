import Lumos.Maths.AreaGrowth
import Lumos.Maths.AreaPacking

/-!
# Allocation outside of fast mode

Nothing is taken out of the free areas, and what is there to clean up is never more than the
whole area.
-/
namespace Lumos.Maths.AreaAllocation.AreaAllocator

open Loop (Returns Finishes)

/-! ## What is promised -/

/-- What has been removed is contained in something that has not, and nothing that has not been
removed is contained in something else. -/
structure Cleaned (before after : List IntRect) : Prop where
  sublist : after.Sublist before
  contained : ∀ r ∈ before, ∃ r' ∈ after, cells r ⊆ cells r'
  apart : after.Pairwise fun r r' => ¬ cells r ⊆ cells r' ∧ ¬ cells r' ⊆ cells r

/-- Whatever free areas something has been found in, cleaning them up ends. -/
def CleansUp (s : AreaAllocator) (width height : Int) : Prop :=
  ∀ t, InCall s width height t → best (max width 0) (max height 0) t.freeAreas ≠ none →
    ∃ cleaned, Returns (cleanup t.freeAreas) (0, none) cleaned ∧ Cleaned t.freeAreas cleaned

structure Reserves (used : List IntRect) (t : AreaAllocator) : Prop where
  disjoint : used.Pairwise fun r r' => Disjoint (cells r) (cells r')
  free : ∀ r ∈ used, ∀ area ∈ t.freeAreas, Disjoint (cells r) (cells area)

/-- Each call returns and reserves an area of its own. -/
def Kept : AreaAllocator → List IntRect → List (Int × Int) → Prop
  | _, _, [] => True
  | s, used, (width, height) :: requests =>
    ∃ t found, Allocates s width height (t, found) ∧ CleansUp s width height ∧
      Reserves (record used (max width 0) (max height 0) found) t ∧
      Kept t (record used (max width 0) (max height 0) found) requests

/-- The condition on a call: the search ends, and an area that is not empty is not found. -/
structure FindsNothing (s : AreaAllocator) (width height : Int) : Prop where
  defined : ∀ t, InCall s width height t → Defined (max width 0) (max height 0) t
  extent : ¬ Stuck (max width 0) (max height 0) s
  nothing : 0 < width → 0 < height → ∀ t, InCall s width height t → best (max width 0) (max height 0) t.freeAreas = none

def AllFindNothing : AreaAllocator → List (Int × Int) → Prop
  | _, [] => True
  | s, (width, height) :: requests =>
    FindsNothing s width height ∧ ∀ t found, Allocates s width height (t, found) → AllFindNothing t requests

/-! ## The invariant -/

/-- The whole area is free, always. -/
structure Undivided (s : AreaAllocator) : Prop where
  freeAreas : s.freeAreas = [s.whole]
  fastMode : s.fastMode = false
  ints : s.Ints
  x : -2 ^ 31 ≤ s.size.x ∧ s.size.x < 2 ^ 31
  y : -2 ^ 31 ≤ s.size.y ∧ s.size.y < 2 ^ 31

section Calls

variable {s t : AreaAllocator} {used : List IntRect} {width height : Int} {found : Option (Int × Int)}

theorem Undivided.grown (h : Undivided s) : Undivided s.grown := by
  have hfree := h.freeAreas
  rw [whole] at hfree
  have hfast := (fastMode_grown s).trans h.fastMode
  cases hturn : s.doubleWidth
  · refine ⟨?_, hfast, ints_grown h.ints, ?_, ?_⟩ <;> simp only [AreaAllocator.grown, hturn, growHeight, whole]
    · simp [hfree]
    · exact h.x
    · exact int32_bounds _
  · refine ⟨?_, hfast, ints_grown h.ints, ?_, ?_⟩ <;> simp only [AreaAllocator.grown, hturn, growWidth, whole]
    · simp [hfree]
    · exact int32_bounds _
    · exact h.y

theorem Undivided.inCall (h : Undivided s) (hcall : InCall s width height t) : Undivided t := by
  induction hcall with
  | refl => exact h
  | tail _ hturn ih =>
    obtain ⟨-, -, -, rfl⟩ := turn_iff.mp hturn
    exact ih.grown

theorem Undivided.cleansUp (h : Undivided s) (width height : Int) : CleansUp s width height := by
  intro t hcall _
  have ht := (h.inCall hcall).freeAreas
  refine ⟨t.freeAreas, cleanup_returns_iff.mpr ⟨by rw [ht]; exact le_refl 1, rfl⟩, List.Sublist.refl _, ?_, ?_⟩
  · exact fun r hr => ⟨r, hr, subset_rfl⟩
  · rw [ht]
    exact List.pairwise_singleton _ _

/-- The corner of the whole area is where a request is placed. -/
theorem Undivided.ends (h : Undivided t) (hends : Ends width height t (s, found)) :
    s = t ∧ found = (best width height t.freeAreas).map fun _ => (0, 0) := by
  cases hends with
  | full hnone => exact ⟨rfl, by rw [hnone]; rfl⟩
  | fast _ _ hfast => exact absurd (h.fastMode.symm.trans hfast) (by decide)
  | @clean i area hbest harea =>
    rw [h.freeAreas] at harea
    obtain rfl := List.mem_singleton.mp (List.mem_of_getElem? harea)
    exact ⟨rfl, by rw [hbest]; rfl⟩

theorem cells_eq_empty {r : IntRect} (h : r.right ≤ r.left ∨ r.bottom ≤ r.top) : cells r = ∅ := by
  refine Set.eq_empty_iff_forall_notMem.mpr ?_
  rintro p ⟨hleft, hright, htop, hbottom⟩
  omega

theorem reserves_of_empty (hused : ∀ r ∈ used, cells r = ∅) (t : AreaAllocator) : Reserves used t where
  disjoint := List.pairwise_of_forall_mem_list fun r hr r' _ => by
    rw [hused r hr]
    exact Set.empty_disjoint _
  free := fun r hr area _ => by
    rw [hused r hr]
    exact Set.empty_disjoint _

theorem allocates_unique {result result' : AreaAllocator × Option (Int × Int)} (h : Allocates s width height result)
    (h' : Allocates s width height result') : result = result' := Finishes.unique h h'

/-- A call that meets the condition. -/
theorem Undivided.call (h : Undivided s) (hused : ∀ r ∈ used, cells r = ∅) (hmeets : FindsNothing s width height)
    (hcall : Allocates s width height (t, found)) :
    Undivided t ∧ ∀ r ∈ record used (max width 0) (max height 0) found, cells r = ∅ := by
  obtain ⟨u, hu, hends⟩ := allocates_iff.mp hcall
  have hinvariant := h.inCall hu
  obtain ⟨rfl, rfl⟩ := hinvariant.ends hends
  refine ⟨hinvariant, ?_⟩
  cases hbest : best (max width 0) (max height 0) t.freeAreas with
  | none => exact hused
  | some i =>
    intro r hr
    obtain hr | hr := List.mem_append.mp hr
    · exact hused r hr
    · obtain rfl := List.mem_singleton.mp hr
      refine cells_eq_empty ?_
      by_contra hpositive
      simp only [not_or, not_le] at hpositive
      exact absurd (hbest.symm.trans (hmeets.nothing (by omega) (by omega) t hu)) (by simp)

theorem FindsNothing.allocates (h : Undivided s) (hmeets : FindsNothing s width height) :
    ∃ t found, Allocates s width height (t, found) := by
  obtain ⟨⟨t, found⟩, hr⟩ :=
    (search_returns_iff h.ints).mpr ⟨fun t hcall => hmeets.defined t hcall, hmeets.extent⟩
  obtain ⟨t', hcall, hleave⟩ := Loop.returns_iff_turns.mp hr
  obtain ⟨rfl, hbest, hmax⟩ := leave_iff.mp hleave
  have ht := h.inCall hcall
  cases found with
  | none => exact ⟨t, none, allocates_iff.mpr ⟨t, hcall, .full hbest (hmax rfl)⟩⟩
  | some i =>
    obtain ⟨area, harea, -⟩ := best_spec hbest
    have hlength : t.freeAreas.length ≤ 1 := by
      rw [ht.freeAreas]
      exact le_refl 1
    exact ⟨t, some (area.left, area.top), allocates_iff.mpr ⟨t, hcall, .clean hbest harea ht.fastMode hlength⟩⟩

/-- A call that reserves an area outside of the free ones has found nothing with an extent. -/
theorem findsNothing_of_reserves (h : Undivided s) (hcall : Allocates s width height (t, found))
    (hreserves : Reserves (record used (max width 0) (max height 0) found) t) : FindsNothing s width height := by
  obtain ⟨hdefined, hstuck⟩ := (search_returns_iff h.ints).mp hcall.returns
  refine ⟨fun u hu => hdefined u hu, hstuck, fun hwidth hheight u hu => ?_⟩
  by_contra hnone
  obtain ⟨i, hbest⟩ := Option.ne_none_iff_exists'.mp hnone
  have hu' := h.inCall hu
  obtain ⟨rfl, rfl⟩ := hu'.ends (ends_of_leave (hu.allocates_congr.mp hcall) (search_found hbest))
  obtain ⟨area, harea, hfits⟩ := best_spec hbest
  rw [hu'.freeAreas] at harea
  obtain rfl := List.mem_singleton.mp (List.mem_of_getElem? harea)
  have hx := hu'.x
  have hy := hu'.y
  have htame : Tame t.whole := ⟨le_refl 0, le_refl 0, .inl rfl, .inl rfl, hx, hy⟩
  rw [htame.width_eq, htame.height_eq] at hfits
  simp only [whole] at hfits
  have hdisjoint := hreserves.free ⟨0, 0, 0 + max width 0, 0 + max height 0⟩ (by simp [hbest, record]) t.whole
    (by rw [hu'.freeAreas]; exact List.mem_singleton_self _)
  refine Set.disjoint_left.mp hdisjoint (show (0, 0) ∈ cells _ from ?_) (show (0, 0) ∈ cells _ from ?_)
  · simp [cells, hwidth, hheight]
  · simp only [cells, whole, Set.mem_ofPred_eq]
    omega

/-! ## Runs -/

theorem kept_of_findNothing {requests : List (Int × Int)} (h : Undivided s) (hused : ∀ r ∈ used, cells r = ∅)
    (hmeets : AllFindNothing s requests) : Kept s used requests := by
  induction requests generalizing s used with
  | nil => trivial
  | cons request requests ih =>
    obtain ⟨t, found, hcall⟩ := hmeets.1.allocates h
    obtain ⟨ht, hrecord⟩ := h.call hused hmeets.1 hcall
    exact ⟨t, found, hcall, h.cleansUp _ _, reserves_of_empty hrecord t, ih ht hrecord (hmeets.2 t found hcall)⟩

theorem findNothing_of_kept {requests : List (Int × Int)} (h : Undivided s) (hused : ∀ r ∈ used, cells r = ∅)
    (hkept : Kept s used requests) : AllFindNothing s requests := by
  induction requests generalizing s used with
  | nil => trivial
  | cons request requests ih =>
    obtain ⟨t, found, hcall, -, hreserves, hrest⟩ := hkept
    have hmeets := findsNothing_of_reserves h hcall hreserves
    obtain ⟨ht, hrecord⟩ := h.call hused hmeets hcall
    refine ⟨hmeets, fun t' found' hcall' => ?_⟩
    cases allocates_unique hcall hcall'
    exact ih ht hrecord hrest

theorem undivided_reset {maxWidth maxHeight : Int} (hx : -2 ^ 31 ≤ width ∧ width < 2 ^ 31)
    (hy : -2 ^ 31 ≤ height ∧ height < 2 ^ 31) (hmax : maxWidth ≤ maxInt) (hmax' : maxHeight ≤ maxInt) :
    Undivided (reset width height maxWidth maxHeight false) := ⟨rfl, rfl, ⟨hmax, hmax'⟩, hx, hy⟩

/-- From the start: every call returns an area of its own exactly where no call finds an area
that has an extent, and every search ends. -/
theorem kept_iff_findNothing {maxWidth maxHeight : Int} (hx : -2 ^ 31 ≤ width ∧ width < 2 ^ 31)
    (hy : -2 ^ 31 ≤ height ∧ height < 2 ^ 31) (hmax : maxWidth ≤ maxInt) (hmax' : maxHeight ≤ maxInt)
    (requests : List (Int × Int)) : Kept (reset width height maxWidth maxHeight false) [] requests ↔
      AllFindNothing (reset width height maxWidth maxHeight false) requests :=
  ⟨findNothing_of_kept (undivided_reset hx hy hmax hmax') (by simp),
    kept_of_findNothing (undivided_reset hx hy hmax hmax') (by simp)⟩

/-- An area without width is reserved in the corner. -/
theorem kept_without_width : Kept (reset 4 4 4 4 false) [] [(0, 3)] := by
  refine (kept_iff_findNothing (by decide) (by decide) (by decide) (by decide) _).mpr
    ⟨⟨fun t hcall => ?_, ?_, by simp⟩, fun _ _ _ => trivial⟩
  · have hbest : best (max 0 0) (max 3 0) (reset 4 4 4 4 false).freeAreas = some 0 := by decide
    obtain rfl := hcall.eq_of_leave (search_found hbest)
    exact fun hnone => absurd (hbest.symm.trans hnone) (by decide)
  · exact fun hstuck => absurd hstuck.2.1 (by decide)

/-- Both calls are given the same corner. -/
theorem not_kept_twice : ¬ Kept (reset 8 8 8 8 false) [] [(4, 4), (4, 4)] := by
  intro hkept
  have hmeets := findNothing_of_kept (undivided_reset (by decide) (by decide) (by decide) (by decide)) (by simp) hkept
  exact absurd (hmeets.1.nothing (by decide) (by decide) _ .refl) (by decide)

end Calls

end Lumos.Maths.AreaAllocation.AreaAllocator
