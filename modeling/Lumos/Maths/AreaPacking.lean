import Lumos.Library.Packing
import Lumos.Maths.AreaAllocator

/-!
# Where the reserved areas lie

In fast mode a free area is split at each allocation. As long as the doubled dimensions fit
into an `int`, what is reserved and what is free never overlap.
-/
namespace Lumos.Maths.AreaAllocation.AreaAllocator

open Loop (Turn)
open Library.Packing

/-! ## Calls one after the other -/

/-- The points of an area. -/
def cells (r : IntRect) : Set (ℤ × ℤ) :=
  {p | r.left ≤ p.1 ∧ p.1 < r.right ∧ r.top ≤ p.2 ∧ p.2 < r.bottom}

def whole (s : AreaAllocator) : IntRect := ⟨0, 0, s.size.x, s.size.y⟩

/-- The rectangles of the calls that have succeeded. -/
def record (used : List IntRect) (width height : Int) : Option (Int × Int) → List IntRect
  | none => used
  | some (x, y) => used ++ [⟨x, y, x + width, y + height⟩]

inductive Calls : AreaAllocator → List IntRect → List (Int × Int) → AreaAllocator → List IntRect → Prop where
  | nil {s : AreaAllocator} {used : List IntRect} : Calls s used [] s used
  | cons {s t s' : AreaAllocator} {used used' : List IntRect} {width height : Int} {found : Option (Int × Int)}
      {requests : List (Int × Int)} (hcall : Allocates s width height (t, found))
      (hrest : Calls t (record used width height found) requests s' used') :
      Calls s used ((width, height) :: requests) s' used'

structure Holds (s : AreaAllocator) (used : List IntRect) : Prop where
  disjoint : used.Pairwise fun r r' => Disjoint (cells r) (cells r')
  inside : ∀ r ∈ used, cells r ⊆ cells s.whole
  free : ∀ r ∈ used, ∀ area ∈ s.freeAreas, Disjoint (cells r) (cells area)

/-- No dimension of half the range of an `int` or more is doubled. -/
def SmallGrowth (s : AreaAllocator) (width height : Int) : Prop :=
  ∀ t, InCall s width height t → best (max width 0) (max height 0) t.freeAreas = none → t.due < t.dueMax → t.due < 2 ^ 30

def AllSmall : AreaAllocator → List (Int × Int) → Prop
  | _, [] => True
  | s, (width, height) :: requests =>
    SmallGrowth s width height ∧ ∀ t found, Allocates s width height (t, found) → AllSmall t requests

/-! ## The invariant -/

/-- An area whose width and height do not overflow. -/
structure Tame (r : IntRect) : Prop where
  left : 0 ≤ r.left
  top : 0 ≤ r.top
  width : r.left = 0 ∨ r.left ≤ r.right
  height : r.top = 0 ∨ r.top ≤ r.bottom
  right : -2 ^ 31 ≤ r.right ∧ r.right < 2 ^ 31
  bottom : -2 ^ 31 ≤ r.bottom ∧ r.bottom < 2 ^ 31

structure Packing (s : AreaAllocator) (used : List IntRect) : Prop where
  packed : Packed cells (cells s.whole) s.freeAreas used
  tame : ∀ r ∈ s.freeAreas, Tame r
  fastMode : s.fastMode = true
  x : -2 ^ 31 ≤ s.size.x ∧ s.size.x < 2 ^ 31
  y : -2 ^ 31 ≤ s.size.y ∧ s.size.y < 2 ^ 31

section Steps

variable {s t : AreaAllocator} {used : List IntRect} {width height : Int} {r area : IntRect}

theorem Tame.width_eq (h : Tame r) : r.width = r.right - r.left :=
  int32_of_mem (by have := h.left; have := h.width; have := h.right; omega)
    (by have := h.left; have := h.width; have := h.right; omega)

theorem Tame.height_eq (h : Tame r) : r.height = r.bottom - r.top :=
  int32_of_mem (by have := h.top; have := h.height; have := h.bottom; omega)
    (by have := h.top; have := h.height; have := h.bottom; omega)

theorem Packing.holds (h : Packing s used) : Holds s used := by
  obtain ⟨-, hused, hcross⟩ := List.pairwise_append.mp h.packed.apart
  refine ⟨hused, fun r hr => h.packed.inside r (List.mem_append_right _ hr), ?_⟩
  exact fun r hr area harea => Disjoint.symm (hcross area harea r hr)

/-- A wider area. -/
theorem Packing.growWidth (h : Packing s used) (hnonneg : 0 ≤ s.size.x) (hsmall : s.size.x < 2 ^ 30) :
    Packing (s.growWidth (2 * s.size.x)) used := by
  have hy := h.y
  have hwider : cells s.whole ⊆ cells ⟨0, 0, 2 * s.size.x, s.size.y⟩ := by
    rintro p ⟨hleft, hright, htop, hbottom⟩
    exact ⟨hleft, by simp only [whole] at hright ⊢; omega, htop, hbottom⟩
  have htame : Tame ⟨0, 0, 2 * s.size.x, s.size.y⟩ := ⟨by simp, by simp, .inl rfl, .inl rfl, by simp only; omega, hy⟩
  refine ⟨?_, ?_, h.fastMode, by simp only [AreaAllocator.growWidth]; omega, hy⟩
  · simp only [AreaAllocator.growWidth, whole]
    split
    case isTrue hfree =>
      have hpacked := h.packed
      rw [hfree] at hpacked
      exact hpacked.widen subset_rfl subset_rfl
    case isFalse =>
      refine h.packed.extend hwider ?_ ?_
      · rintro p ⟨hleft, hright, htop, hbottom⟩
        exact ⟨by simp only at hleft ⊢; omega, hright, htop, hbottom⟩
      · refine Set.disjoint_left.mpr ?_
        rintro p ⟨hleft, -⟩ ⟨-, hright, -⟩
        simp only [whole] at hleft hright
        omega
  · intro r hr
    simp only [AreaAllocator.growWidth] at hr
    split at hr
    case isTrue =>
      obtain rfl := List.mem_singleton.mp hr
      exact htame
    case isFalse =>
      obtain hr | hr := List.mem_append.mp hr
      · exact h.tame r hr
      · obtain rfl := List.mem_singleton.mp hr
        exact ⟨hnonneg, by simp, .inr (by simp only; omega), .inl rfl, by simp only; omega, hy⟩

/-- A higher area. -/
theorem Packing.growHeight (h : Packing s used) (hnonneg : 0 ≤ s.size.y) (hsmall : s.size.y < 2 ^ 30) :
    Packing (s.growHeight (2 * s.size.y)) used := by
  have hx := h.x
  have hhigher : cells s.whole ⊆ cells ⟨0, 0, s.size.x, 2 * s.size.y⟩ := by
    rintro p ⟨hleft, hright, htop, hbottom⟩
    exact ⟨hleft, hright, htop, by simp only [whole] at hbottom ⊢; omega⟩
  have htame : Tame ⟨0, 0, s.size.x, 2 * s.size.y⟩ := ⟨by simp, by simp, .inl rfl, .inl rfl, hx, by simp only; omega⟩
  refine ⟨?_, ?_, h.fastMode, hx, by simp only [AreaAllocator.growHeight]; omega⟩
  · simp only [AreaAllocator.growHeight, whole]
    split
    case isTrue hfree =>
      have hpacked := h.packed
      rw [hfree] at hpacked
      exact hpacked.widen subset_rfl subset_rfl
    case isFalse =>
      refine h.packed.extend hhigher ?_ ?_
      · rintro p ⟨hleft, hright, htop, hbottom⟩
        exact ⟨hleft, hright, by simp only at htop ⊢; omega, hbottom⟩
      · refine Set.disjoint_left.mpr ?_
        rintro p ⟨-, -, htop, -⟩ ⟨-, -, -, hbottom⟩
        simp only [whole] at htop hbottom
        omega
  · intro r hr
    simp only [AreaAllocator.growHeight] at hr
    split at hr
    case isTrue =>
      obtain rfl := List.mem_singleton.mp hr
      exact htame
    case isFalse =>
      obtain hr | hr := List.mem_append.mp hr
      · exact h.tame r hr
      · obtain rfl := List.mem_singleton.mp hr
        exact ⟨by simp, hnonneg, .inl rfl, .inr (by simp only; omega), hx, by simp only; omega⟩

theorem Packing.grown (h : Packing s used) (hnonneg : 0 ≤ s.due) (hsmall : s.due < 2 ^ 30) : Packing s.grown used := by
  rw [AreaAllocator.grown]
  cases hturn : s.doubleWidth
  · have hdue : s.due = s.size.y := by simp [due, hturn]
    rw [hdue] at hnonneg hsmall
    simp only [Bool.false_eq_true, if_false, int32_two_mul_of_lt hnonneg hsmall]
    exact h.growHeight hnonneg hsmall
  · have hdue : s.due = s.size.x := by simp [due, hturn]
    rw [hdue] at hnonneg hsmall
    simp only [if_true, int32_two_mul_of_lt hnonneg hsmall]
    exact h.growWidth hnonneg hsmall

/-- The parts a free area is divided into when `width` and `height` are reserved. -/
def parts (area : IntRect) (width height : Int) (below : Bool) : List IntRect :=
  if below then [⟨area.left + width, area.top, area.right, area.top + height⟩,
    ⟨area.left, area.top + height, area.right, area.bottom⟩]
  else [⟨area.left + width, area.top, area.right, area.bottom⟩]

def reserved (area : IntRect) (width height : Int) : IntRect :=
  ⟨area.left, area.top, area.left + width, area.top + height⟩

theorem reserve_freeAreas {i : Nat} (htame : Tame area) (hwidth : 0 < width) (hheight : 0 < height)
    (hfits : width ≤ area.width ∧ height ≤ area.height) (hlt : i < s.freeAreas.length) :
    ∃ below, (s.reserve width height i area).freeAreas.Perm (parts area width height below ++ s.freeAreas.eraseIdx i) := by
  have hleft := htame.left
  have htop := htame.top
  have hright := htame.right
  have hbottom := htame.bottom
  rw [htame.width_eq, htame.height_eq] at hfits
  have hwide : int32 (area.left + width) = area.left + width := int32_of_mem (by omega) (by omega)
  have hhigh : int32 (area.top + height) = area.top + height := int32_of_mem (by omega) (by omega)
  rw [reserve, hwide, hhigh]
  simp only
  split
  · refine ⟨true, (List.Perm.append_right _ (List.set_perm_cons_eraseIdx hlt _)).trans ?_⟩
    simp only [parts, if_true, List.cons_append, List.nil_append]
    exact (List.perm_append_singleton _ _).cons _
  · exact ⟨false, List.set_perm_cons_eraseIdx hlt _⟩

theorem parts_subset (hwidth : 0 < width) (hheight : 0 < height)
    (hfits : width ≤ area.right - area.left ∧ height ≤ area.bottom - area.top) (below : Bool) :
    ∀ p ∈ reserved area width height :: parts area width height below, cells p ⊆ cells area := by
  intro p hp
  obtain rfl | hp := List.mem_cons.mp hp
  · rintro q ⟨hleft, hright, htop, hbottom⟩
    simp only [reserved] at hleft hright htop hbottom
    exact ⟨hleft, by omega, htop, by omega⟩
  · cases below <;> simp only [parts, if_true, Bool.false_eq_true, if_false, List.mem_cons, List.not_mem_nil, or_false] at hp
    · subst hp
      rintro q ⟨hleft, hright, htop, hbottom⟩
      exact ⟨by simp only at hleft; omega, hright, htop, hbottom⟩
    · obtain rfl | rfl := hp
      · rintro q ⟨hleft, hright, htop, hbottom⟩
        exact ⟨by simp only at hleft; omega, hright, htop, by simp only at hbottom; omega⟩
      · rintro q ⟨hleft, hright, htop, hbottom⟩
        exact ⟨hleft, hright, by simp only at htop; omega, hbottom⟩

theorem parts_apart (below : Bool) :
    (reserved area width height :: parts area width height below).Pairwise (Apart cells) := by
  have hbeside : ∀ bottom, Disjoint (cells (reserved area width height))
      (cells ⟨area.left + width, area.top, area.right, bottom⟩) := by
    refine fun bottom => Set.disjoint_left.mpr ?_
    rintro p ⟨-, hright, -⟩ ⟨hleft, -⟩
    simp only [reserved] at hright hleft
    omega
  cases below
  · simpa [parts, Apart] using hbeside area.bottom
  · have hbelow : ∀ left right, Disjoint (cells ⟨left, area.top, right, area.top + height⟩)
        (cells ⟨area.left, area.top + height, area.right, area.bottom⟩) := by
      refine fun left right => Set.disjoint_left.mpr ?_
      rintro p ⟨-, -, -, hbottom⟩ ⟨-, -, htop, -⟩
      simp only at hbottom htop
      omega
    simp only [parts, if_true, List.pairwise_cons, List.mem_cons, List.not_mem_nil, or_false, forall_eq_or_imp, forall_eq]
    exact ⟨⟨hbeside _, hbelow _ _⟩, hbelow _ _, by simp⟩

theorem parts_tame (htame : Tame area) (hwidth : 0 < width) (hheight : 0 < height)
    (hfits : width ≤ area.right - area.left ∧ height ≤ area.bottom - area.top) (below : Bool) :
    ∀ p ∈ parts area width height below, Tame p := by
  obtain ⟨hleft, htop, hwide, hhigh, hright, hbottom⟩ := htame
  intro p hp
  cases below <;> simp only [parts, if_true, Bool.false_eq_true, if_false, List.mem_cons, List.not_mem_nil, or_false] at hp
  · subst hp
    exact ⟨by simp only; omega, htop, .inr (by simp only; omega), hhigh, hright, hbottom⟩
  · obtain rfl | rfl := hp
    · exact ⟨by simp only; omega, htop, .inr (by simp only; omega), .inr (by simp only; omega), hright,
        by simp only; omega⟩
    · exact ⟨hleft, by simp only; omega, hwide, .inr (by simp only; omega), hright, hbottom⟩

/-- A free area is split. -/
theorem Packing.reserve (h : Packing s used) {i : Nat} (harea : s.freeAreas[i]? = some area) (hwidth : 0 < width)
    (hheight : 0 < height) (hfits : width ≤ area.width ∧ height ≤ area.height) :
    Packing (s.reserve width height i area) (used ++ [reserved area width height]) := by
  obtain ⟨hlt, rfl⟩ := List.getElem?_eq_some_iff.mp harea
  have htame := h.tame _ (List.getElem_mem hlt)
  obtain ⟨below, hperm⟩ := reserve_freeAreas htame hwidth hheight hfits hlt
  rw [htame.width_eq, htame.height_eq] at hfits
  have hsize := size_reserve width height s i s.freeAreas[i]
  have hwhole : (s.reserve width height i s.freeAreas[i]).whole = s.whole := by rw [whole, whole, hsize]
  refine ⟨?_, ?_, ?_, hsize ▸ h.x, hsize ▸ h.y⟩
  · rw [hwhole]
    have hsplit := (h.packed.perm (List.getElem_cons_eraseIdx_perm hlt).symm).divide
      (parts_subset hwidth hheight hfits below) (parts_apart below)
    exact hsplit.perm hperm.symm
  · intro r hr
    obtain hr | hr := List.mem_append.mp (hperm.mem_iff.mp hr)
    · exact parts_tame htame hwidth hheight hfits below r hr
    · exact h.tame r (List.mem_of_mem_eraseIdx hr)
  · rw [AreaAllocator.reserve]
    simp only
    split <;> exact h.fastMode

theorem Packing.inCall (h : Packing s used) (hsmall : SmallGrowth s width height) (hcall : InCall s width height t) :
    Packing t used := by
  induction hcall with
  | refl => exact h
  | tail hcall hturn ih =>
    obtain ⟨hnone, hlt, hnonneg, rfl⟩ := AreaAllocator.turn_iff.mp hturn
    exact ih.grown hnonneg (hsmall _ hcall hnone hlt)

/-- One call. -/
theorem Packing.call (h : Packing s used) (hsmall : SmallGrowth s width height) (hwidth : 0 < width)
    (hheight : 0 < height) {found : Option (Int × Int)} (hcall : Allocates s width height (t, found)) :
    Packing t (record used width height found) := by
  obtain ⟨u, hcall, hends⟩ := allocates_iff.mp hcall
  have hu := h.inCall hsmall hcall
  rw [max_eq_left hwidth.le, max_eq_left hheight.le] at hends
  cases hends with
  | full => exact hu
  | fast hbest harea =>
    obtain ⟨area', harea', hfits⟩ := best_spec hbest
    cases harea.symm.trans harea'
    exact hu.reserve harea hwidth hheight hfits
  | clean _ _ hfast => exact absurd (hu.fastMode.symm.trans hfast) (by decide)

end Steps

/-! ## Runs -/

section Runs

variable {s s' : AreaAllocator} {used used' : List IntRect} {requests : List (Int × Int)}

theorem Packing.calls (h : Packing s used) (hpositive : ∀ request ∈ requests, 0 < request.1 ∧ 0 < request.2)
    (hsmall : AllSmall s requests) (hcalls : Calls s used requests s' used') : Packing s' used' := by
  induction hcalls with
  | nil => exact h
  | cons hcall hrest ih =>
    obtain ⟨hfirst, hothers⟩ := List.forall_mem_cons.mp hpositive
    exact ih (h.call hsmall.1 hfirst.1 hfirst.2 hcall) hothers (hsmall.2 _ _ hcall)

theorem packing_reset {width height : Int} (hx : -2 ^ 31 ≤ width ∧ width < 2 ^ 31) (hy : -2 ^ 31 ≤ height ∧ height < 2 ^ 31)
    (maxWidth maxHeight : Int) : Packing (reset width height maxWidth maxHeight true) [] where
  packed := ⟨by simp [reset, whole], by simp [reset]⟩
  tame := by
    intro r hr
    obtain rfl := List.mem_singleton.mp hr
    exact ⟨by simp, by simp, .inl rfl, .inl rfl, hx, hy⟩
  fastMode := rfl
  x := hx
  y := hy

/-- From the start, whatever is asked for: the reserved areas do not overlap, and lie inside
and beside what is free. -/
theorem calls_hold {width height maxWidth maxHeight : Int} (hx : -2 ^ 31 ≤ width ∧ width < 2 ^ 31)
    (hy : -2 ^ 31 ≤ height ∧ height < 2 ^ 31) (hpositive : ∀ request ∈ requests, 0 < request.1 ∧ 0 < request.2)
    (hsmall : AllSmall (reset width height maxWidth maxHeight true) requests)
    (hcalls : Calls (reset width height maxWidth maxHeight true) [] requests s used) : Holds s used :=
  ((packing_reset hx hy maxWidth maxHeight).calls hpositive hsmall hcalls).holds

/-- Limits of half the range are enough. -/
theorem allSmall_of_maxSize (hx : s.maxSize.x ≤ 2 ^ 30) (hy : s.maxSize.y ≤ 2 ^ 30) (requests : List (Int × Int)) :
    AllSmall s requests := by
  induction requests generalizing s with
  | nil => trivial
  | cons request requests ih =>
    refine ⟨fun t hcall _ hlt => ?_, fun t found hcall => ?_⟩
    · have hmax := hcall.maxSize_eq
      rw [dueMax] at hlt
      split at hlt <;> rw [hmax] at hlt <;> omega
    · obtain ⟨u, hu, hends⟩ := allocates_iff.mp hcall
      have hmax : t.maxSize = s.maxSize := by
        rw [← hu.maxSize_eq]
        cases hends with
        | full => rfl
        | fast => exact maxSize_reserve _ _ _ _ _
        | clean => rfl
      exact ih (by rw [hmax]; exact hx) (by rw [hmax]; exact hy)

/-- In the middle of a free square. -/
theorem calls_hold_square : ∃ s used, Calls (reset 4 4 8 8 true) [] [(2, 2)] s used ∧ used ≠ [] ∧ Holds s used := by
  have hbest : best (max 2 0) (max 2 0) (reset 4 4 8 8 true).freeAreas = some 0 := by decide
  have hends : Ends (max 2 0) (max 2 0) (reset 4 4 8 8 true) _ := .fast hbest rfl rfl
  have hcalls : Calls (reset 4 4 8 8 true) [] [(2, 2)] _ _ := .cons (allocates_iff.mpr ⟨_, .refl, hends⟩) .nil
  exact ⟨_, _, hcalls, by simp [record],
    calls_hold (by decide) (by decide) (by decide) (allSmall_of_maxSize (by decide) (by decide) _) hcalls⟩

/-- The first area is as wide as half the range. To make room for another one, the width is
doubled to a negative one. -/
theorem calls_overflow :
    ∃ s used, Calls (reset (2 ^ 30) 1 maxInt 1 true) [] [(2 ^ 30, 1), (1, 1)] s used ∧ ¬ Holds s used := by
  have hbest : best (max (2 ^ 30) 0) (max 1 0) (reset (2 ^ 30) 1 maxInt 1 true).freeAreas = some 0 := by decide
  have hends : Ends (max (2 ^ 30) 0) (max 1 0) (reset (2 ^ 30) 1 maxInt 1 true) _ := .fast hbest rfl rfl
  generalize hs : (reset (2 ^ 30) 1 maxInt 1 true).reserve _ _ 0 _ = s at hends
  have hturn : Turn (search (max 1 0) (max 1 0)) s s.grown := by
    subst hs
    exact turn_iff.mpr ⟨by decide, by decide, by decide, rfl⟩
  have hnext : best (max 1 0) (max 1 0) s.grown.freeAreas = some 2 := by
    subst hs
    decide
  have hends' : Ends (max 1 0) (max 1 0) s.grown _ := .fast hnext (by subst hs; rfl) (by subst hs; rfl)
  refine ⟨_, _, .cons (allocates_iff.mpr ⟨_, .refl, hends⟩)
    (.cons (allocates_iff.mpr ⟨_, .single hturn, hends'⟩) .nil), fun h => ?_⟩
  have hinside := h.inside ⟨0, 0, 0 + 2 ^ 30, 0 + 1⟩ (by simp [record])
  obtain ⟨-, hright, -⟩ := hinside (show (0, 0) ∈ cells _ by simp [cells])
  rw [whole, size_reserve] at hright
  subst hs
  exact absurd hright (by decide)

end Runs

end Lumos.Maths.AreaAllocation.AreaAllocator
