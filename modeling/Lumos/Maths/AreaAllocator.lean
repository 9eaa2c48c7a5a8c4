import Mathlib
import Lumos.Library.Loop

/-!
# `AreaAllocator`

A request is searched for in the free areas. Where nothing fits, the area is doubled in the
dimension whose turn it is, and the search begins anew.
-/
namespace Lumos.Maths.AreaAllocation

open Loop (Turn Returns Finishes)

/-- The value an `int` is left with. -/
def int32 (n : Int) : Int := n.bmod (2 ^ 32)

/-- `M_MAX_INT` -/
def maxInt : Int := 0x7fffffff

structure IntVector2 where
  x : Int
  y : Int
  deriving DecidableEq

structure IntRect where
  left : Int
  top : Int
  right : Int
  bottom : Int
  deriving DecidableEq

def IntRect.width (r : IntRect) : Int := int32 (r.right - r.left)

def IntRect.height (r : IntRect) : Int := int32 (r.bottom - r.top)

structure AreaAllocator where
  freeAreas : List IntRect
  size : IntVector2
  maxSize : IntVector2
  doubleWidth : Bool
  fastMode : Bool
  deriving DecidableEq

def reset (width height maxWidth maxHeight : Int) (fastMode : Bool) : AreaAllocator where
  freeAreas := [⟨0, 0, width, height⟩]
  size := ⟨width, height⟩
  maxSize := ⟨maxWidth, maxHeight⟩
  doubleWidth := true
  fastMode := fastMode

/-! ## `Allocate` -/

/-- One turn of the loop over the free areas: the best one so far and its rank. -/
def better (width height : Int) (best : Option Nat × Int) (entry : IntRect × Nat) : Option Nat × Int :=
  let (area, i) := entry
  if width ≤ area.width ∧ height ≤ area.height then
    let freeArea := int32 (area.width * area.height)
    if freeArea < best.2 then (some i, freeArea) else best
  else best

def best (width height : Int) (freeAreas : List IntRect) : Option Nat :=
  (freeAreas.zipIdx.foldl (better width height) (none, maxInt)).1

/-- `v <<= 1`, which is undefined for a negative value. -/
def shifted (v : Int) : Option Int := if v < 0 then none else some (int32 (2 * v))

theorem int32_of_mem {n : Int} (hlow : -2 ^ 31 ≤ n) (hhigh : n < 2 ^ 31) : int32 n = n := by
  rw [int32]
  exact Int.bmod_eq_of_le (by omega) (by omega)

theorem int32_bounds (n : Int) : -2 ^ 31 ≤ int32 n ∧ int32 n < 2 ^ 31 := by
  have hlow := Int.le_bmod (x := n) (m := 2 ^ 32) (by decide)
  have hhigh := Int.bmod_lt (x := n) (m := 2 ^ 32) (by decide)
  rw [int32]
  omega

theorem int32_two_mul_of_lt {v : Int} (hlow : 0 ≤ v) (hhigh : v < 2 ^ 30) : int32 (2 * v) = 2 * v :=
  int32_of_mem (by omega) (by omega)

/-- From half of the range on the doubled value is negative. -/
theorem int32_two_mul_of_le {v : Int} (hlow : 2 ^ 30 ≤ v) (hhigh : v < 2 ^ 31) : int32 (2 * v) = 2 * v - 2 ^ 32 := by
  have hmod : 2 * v % ((2 ^ 32 : Nat) : Int) = 2 * v := Int.emod_eq_of_lt (by omega) (by push_cast; omega)
  rw [int32, Int.bmod_def, hmod, if_neg (by push_cast; omega)]
  push_cast
  rfl

namespace AreaAllocator

/-- If the area is free as a whole it is made wider, else the new part is free. -/
def growWidth (s : AreaAllocator) (newWidth : Int) : AreaAllocator :=
  { s with
    size := ⟨newWidth, s.size.y⟩
    freeAreas :=
      if s.freeAreas = [⟨0, 0, s.size.x, s.size.y⟩] then [⟨0, 0, newWidth, s.size.y⟩]
      else s.freeAreas ++ [⟨s.size.x, 0, newWidth, s.size.y⟩]
    doubleWidth := !s.doubleWidth }

def growHeight (s : AreaAllocator) (newHeight : Int) : AreaAllocator :=
  { s with
    size := ⟨s.size.x, newHeight⟩
    freeAreas :=
      if s.freeAreas = [⟨0, 0, s.size.x, s.size.y⟩] then [⟨0, 0, s.size.x, newHeight⟩]
      else s.freeAreas ++ [⟨0, s.size.y, s.size.x, newHeight⟩]
    doubleWidth := !s.doubleWidth }

/-- One turn of the outer loop. It is left with an area, or with none. -/
def search (width height : Int) : Loop.Body AreaAllocator (AreaAllocator × Option Nat) := fun s =>
  match best width height s.freeAreas with
  | some i => some (.inr (s, some i))
  | none =>
    if s.doubleWidth = true ∧ s.size.x < s.maxSize.x then
      (shifted s.size.x).map fun newWidth => .inl (s.growWidth newWidth)
    else if s.doubleWidth = false ∧ s.size.y < s.maxSize.y then
      (shifted s.size.y).map fun newHeight => .inl (s.growHeight newHeight)
    else some (.inr (s, none))

/-- Reserve the area by splitting up the remaining free area -/
def reserve (width height : Int) (s : AreaAllocator) (i : Nat) (area : IntRect) : AreaAllocator :=
  let reserved : IntRect := ⟨area.left, area.top, int32 (area.left + width), int32 (area.top + height)⟩
  let beside := { area with left := reserved.right }
  if int32 (2 * height) < beside.height ∨ s.size.y.tdiv 2 ≤ height then
    let splitArea : IntRect := ⟨reserved.left, reserved.bottom, beside.right, beside.bottom⟩
    { s with freeAreas := s.freeAreas.set i { beside with bottom := reserved.bottom } ++ [splitArea] }
  else { s with freeAreas := s.freeAreas.set i beside }

/-- The two loops over the free areas, the inner one with an index of its own. Nothing is ever
erased, and the inner loop does not count. -/
def cleanup (freeAreas : List IntRect) : Loop.Body (Nat × Option Nat) (List IntRect)
  | (i, none) =>
    if i < freeAreas.length then some (.inl (i, some (i + 1))) else some (.inr freeAreas)
  | (i, some j) => if j < freeAreas.length then some (.inl (i, some j)) else some (.inl (i + 1, none))

/-- What follows on the search. -/
def place (fuel : Nat) (width height : Int) : AreaAllocator × Option Nat → Option (AreaAllocator × Option (Int × Int))
  | (s, none) => some (s, none)
  | (s, some i) =>
    s.freeAreas[i]?.bind fun area =>
      if s.fastMode then some (s.reserve width height i area, some (area.left, area.top))
      else (Loop.run (cleanup s.freeAreas) fuel (0, none)).map fun freeAreas =>
        ({ s with freeAreas }, some (area.left, area.top))

/-- `Allocate`, with the coordinates if it succeeds. -/
def allocate (fuel : Nat) (s : AreaAllocator) (width height : Int) : Option (AreaAllocator × Option (Int × Int)) :=
  (Loop.run (search (max width 0) (max height 0)) fuel s).bind (place fuel (max width 0) (max height 0))

/-- The call returns. -/
def Allocates (s : AreaAllocator) (width height : Int) (result : AreaAllocator × Option (Int × Int)) : Prop :=
  Finishes (fun fuel => allocate fuel s width height) result

/-- A turn of the call begins in `t`. -/
def InCall (s : AreaAllocator) (width height : Int) (t : AreaAllocator) : Prop :=
  Relation.ReflTransGen (Turn (search (max width 0) (max height 0))) s t

/-! ## The dimension whose turn it is -/

def due (s : AreaAllocator) : Int := if s.doubleWidth then s.size.x else s.size.y

def dueMax (s : AreaAllocator) : Int := if s.doubleWidth then s.maxSize.x else s.maxSize.y

def other (s : AreaAllocator) : Int := if s.doubleWidth then s.size.y else s.size.x

def otherMax (s : AreaAllocator) : Int := if s.doubleWidth then s.maxSize.y else s.maxSize.x

/-- The state after that dimension has been doubled. -/
def grown (s : AreaAllocator) : AreaAllocator :=
  if s.doubleWidth then s.growWidth (int32 (2 * s.size.x)) else s.growHeight (int32 (2 * s.size.y))

/-- The limits are `int`s. -/
structure Ints (s : AreaAllocator) : Prop where
  x : s.maxSize.x ≤ maxInt
  y : s.maxSize.y ≤ maxInt

section Turns

variable {s t : AreaAllocator} {width height : Int}

@[simp] theorem due_grown (s : AreaAllocator) : s.grown.due = s.other := by
  cases h : s.doubleWidth <;> simp [due, other, grown, growWidth, growHeight, h]

@[simp] theorem dueMax_grown (s : AreaAllocator) : s.grown.dueMax = s.otherMax := by
  cases h : s.doubleWidth <;> simp [dueMax, otherMax, grown, growWidth, growHeight, h]

@[simp] theorem other_grown (s : AreaAllocator) : s.grown.other = int32 (2 * s.due) := by
  cases h : s.doubleWidth <;> simp [due, other, grown, growWidth, growHeight, h]

@[simp] theorem otherMax_grown (s : AreaAllocator) : s.grown.otherMax = s.dueMax := by
  cases h : s.doubleWidth <;> simp [dueMax, otherMax, grown, growWidth, growHeight, h]

@[simp] theorem maxSize_grown (s : AreaAllocator) : s.grown.maxSize = s.maxSize := by
  cases h : s.doubleWidth <;> simp [grown, growWidth, growHeight, h]

@[simp] theorem fastMode_grown (s : AreaAllocator) : s.grown.fastMode = s.fastMode := by
  cases h : s.doubleWidth <;> simp [grown, growWidth, growHeight, h]

theorem search_found {i : Nat} (h : best width height s.freeAreas = some i) :
    search width height s = some (.inr (s, some i)) := by
  rw [search, h]

/-- What the loop does where nothing fits, in terms of the dimension whose turn it is. -/
theorem search_of_none (h : best width height s.freeAreas = none) : search width height s =
    if s.due < s.dueMax then (if s.due < 0 then none else some (.inl s.grown)) else some (.inr (s, none)) := by
  rw [search, h]
  cases hturn : s.doubleWidth with
  | true =>
    by_cases hlt : s.size.x < s.maxSize.x <;> by_cases hneg : s.size.x < 0 <;>
      simp [due, dueMax, grown, shifted, hturn, hlt, hneg]
  | false =>
    by_cases hlt : s.size.y < s.maxSize.y <;> by_cases hneg : s.size.y < 0 <;>
      simp [due, dueMax, grown, shifted, hturn, hlt, hneg]

/-- A turn that goes on. -/
theorem turn_iff : Turn (search width height) s t ↔
    best width height s.freeAreas = none ∧ s.due < s.dueMax ∧ 0 ≤ s.due ∧ t = s.grown := by
  rw [Turn]
  cases h : best width height s.freeAreas with
  | some i => simp [search_found h]
  | none =>
    rw [search_of_none h]
    split_ifs with hlt hneg
    · simp [hneg]
    · simp [hlt, Int.not_lt.mp hneg, eq_comm]
    · simp [hlt]

/-- A turn with which the loop is left. -/
theorem leave_iff {found : Option Nat} : search width height s = some (.inr (t, found)) ↔
    t = s ∧ best width height s.freeAreas = found ∧ (found = none → s.dueMax ≤ s.due) := by
  cases h : best width height s.freeAreas with
  | some i =>
    rw [search_found h]
    constructor
    · rintro ⟨⟩
      exact ⟨rfl, rfl, by simp⟩
    · rintro ⟨rfl, rfl, -⟩
      rfl
  | none =>
    rw [search_of_none h]
    split_ifs with hlt hneg
    · constructor
      · rintro ⟨⟩
      · rintro ⟨-, rfl, hmax⟩
        exact absurd (hmax rfl) (by omega)
    · constructor
      · rintro ⟨⟩
      · rintro ⟨-, rfl, hmax⟩
        exact absurd (hmax rfl) (by omega)
    · constructor
      · rintro ⟨⟩
        exact ⟨rfl, rfl, fun _ => Int.not_lt.mp hlt⟩
      · rintro ⟨rfl, rfl, -⟩
        rfl

/-- Where a turn is undefined. -/
theorem search_eq_none_iff : search width height s = none ↔
    best width height s.freeAreas = none ∧ s.due < s.dueMax ∧ s.due < 0 := by
  cases h : best width height s.freeAreas with
  | some i => simp [search_found h]
  | none =>
    rw [search_of_none h]
    split_ifs with hlt hneg
    · simp [hlt, hneg]
    · simp [hneg]
    · simp [hlt]

end Turns

/-! ## The best area -/

section Best

variable {width height : Int} {freeAreas : List IntRect}

theorem best_append (area : IntRect) : best width height (freeAreas ++ [area]) =
    (better width height (freeAreas.zipIdx.foldl (better width height) (none, maxInt)) (area, freeAreas.length)).1 := by
  rw [best, List.zipIdx_append, List.foldl_append]
  simp

theorem better_of_not_fits {area : IntRect} (hfits : ¬ (width ≤ area.width ∧ height ≤ area.height))
    (sofar : Option Nat × Int) (i : Nat) : better width height sofar (area, i) = sofar := if_neg hfits

/-- What is found has been tried and fits. -/
theorem best_spec {i : Nat} (h : best width height freeAreas = some i) :
    ∃ area, freeAreas[i]? = some area ∧ width ≤ area.width ∧ height ≤ area.height := by
  induction freeAreas using List.reverseRecOn with
  | nil => cases h
  | append_singleton areas area ih =>
    rw [best_append, better] at h
    have hbefore : best width height areas = some i → ∃ area', (areas ++ [area])[i]? = some area' ∧
        width ≤ area'.width ∧ height ≤ area'.height := by
      intro hfound
      obtain ⟨area', harea', hfits⟩ := ih hfound
      obtain ⟨hlt, -⟩ := List.getElem?_eq_some_iff.mp harea'
      exact ⟨area', by rw [List.getElem?_append_left hlt, harea'], hfits⟩
    simp only at h
    split_ifs at h with hfits hless
    · cases h
      exact ⟨area, by simp, hfits⟩
    · exact hbefore h
    · exact hbefore h

/-- Where nothing has been found, nothing has been ranked. -/
theorem rank_of_best_eq_none (h : best width height freeAreas = none) :
    (freeAreas.zipIdx.foldl (better width height) (none, maxInt)).2 = maxInt := by
  induction freeAreas using List.reverseRecOn with
  | nil => rfl
  | append_singleton areas area ih =>
    have hlast := @best_append width height areas area
    rw [h, better] at hlast
    rw [List.zipIdx_append, List.foldl_append]
    simp only [List.zipIdx_cons, List.zipIdx_nil, List.foldl_cons, List.foldl_nil, better, Nat.zero_add]
    simp only at hlast
    split_ifs at hlast ⊢ with hfits hless
    · exact ih hlast.symm
    · exact ih hlast.symm

end Best

/-! ## Calls -/

section Calls

variable {s t : AreaAllocator} {width height : Int}

theorem InCall.maxSize_eq (h : InCall s width height t) : t.maxSize = s.maxSize := by
  induction h with
  | refl => rfl
  | tail _ hturn ih =>
    obtain ⟨-, -, -, rfl⟩ := turn_iff.mp hturn
    rw [maxSize_grown, ih]

theorem size_reserve (width height : Int) (s : AreaAllocator) (i : Nat) (area : IntRect) :
    (s.reserve width height i area).size = s.size := by
  rw [reserve]
  simp only
  split <;> rfl

theorem maxSize_reserve (width height : Int) (s : AreaAllocator) (i : Nat) (area : IntRect) :
    (s.reserve width height i area).maxSize = s.maxSize := by
  rw [reserve]
  simp only
  split <;> rfl

/-- With two free areas the inner loop never ends. -/
theorem cleanup_returns_iff {freeAreas cleaned : List IntRect} :
    Returns (cleanup freeAreas) (0, none) cleaned ↔ freeAreas.length ≤ 1 ∧ cleaned = freeAreas := by
  match freeAreas with
  | [] =>
    have hleave : cleanup [] (0, none) = some (.inr []) := rfl
    constructor
    · exact fun h => ⟨Nat.zero_le 1, h.unique (Loop.returns_of_leave hleave)⟩
    · rintro ⟨-, rfl⟩
      exact Loop.returns_of_leave hleave
  | [area] =>
    have hfirst : Turn (cleanup [area]) (0, none) (0, some 1) := rfl
    have hsecond : Turn (cleanup [area]) (0, some 1) (1, none) := rfl
    have hleave : cleanup [area] (1, none) = some (.inr [area]) := rfl
    have hreturns : Returns (cleanup [area]) (0, none) [area] := (Loop.returns_turn_iff hfirst).mpr
      ((Loop.returns_turn_iff hsecond).mpr (Loop.returns_of_leave hleave))
    constructor
    · exact fun h => ⟨Nat.le_refl 1, h.unique hreturns⟩
    · rintro ⟨-, rfl⟩
      exact hreturns
  | first :: second :: rest =>
    have henter : Turn (cleanup (first :: second :: rest)) (0, none) (0, some 1) := by simp [Turn, cleanup]
    have hstay : Turn (cleanup (first :: second :: rest)) (0, some 1) (0, some 1) := by simp [Turn, cleanup]
    constructor
    · intro h
      exact absurd ((Loop.returns_turn_iff henter).mp h)
        (Loop.not_returns (· = (0, some 1)) (fun u hu => ⟨(0, some 1), hu ▸ hstay, rfl⟩) rfl cleaned)
    · rintro ⟨hlength, -⟩
      simp at hlength

/-- How a call ends in the turn that begins in `t`. -/
inductive Ends (width height : Int) (t : AreaAllocator) : AreaAllocator × Option (Int × Int) → Prop where
  | full (hnone : best width height t.freeAreas = none) (hmax : t.dueMax ≤ t.due) : Ends width height t (t, none)
  | fast {i : Nat} {area : IntRect} (hbest : best width height t.freeAreas = some i)
      (harea : t.freeAreas[i]? = some area) (hfast : t.fastMode = true) :
      Ends width height t (t.reserve width height i area, some (area.left, area.top))
  | clean {i : Nat} {area : IntRect} (hbest : best width height t.freeAreas = some i)
      (harea : t.freeAreas[i]? = some area) (hfast : t.fastMode = false) (hlength : t.freeAreas.length ≤ 1) :
      Ends width height t (t, some (area.left, area.top))

theorem place_finishes_iff {result : AreaAllocator × Option (Int × Int)} {found : Option Nat}
    (hbest : best width height t.freeAreas = found) (hmax : found = none → t.dueMax ≤ t.due) :
    Finishes (fun fuel => place fuel width height (t, found)) result ↔ Ends width height t result := by
  cases found with
  | none =>
    constructor
    · intro h
      obtain rfl := Finishes.unique h (Loop.finishes_const (r := (t, none)))
      exact .full hbest (hmax rfl)
    · rintro (⟨-, -⟩ | ⟨hother, -⟩ | ⟨hother, -⟩)
      · exact Loop.finishes_const
      · cases hbest.symm.trans hother
      · cases hbest.symm.trans hother
  | some i =>
    obtain ⟨area, harea, -⟩ := best_spec hbest
    cases hfast : t.fastMode with
    | true =>
      have hplace : (fun fuel => place fuel width height (t, some i)) =
          fun _ => some (t.reserve width height i area, some (area.left, area.top)) := by
        funext fuel
        simp [place, harea, hfast]
      rw [hplace]
      constructor
      · intro h
        obtain rfl := Finishes.unique h Loop.finishes_const
        exact .fast hbest harea hfast
      · rintro (⟨hother, -⟩ | ⟨hother, harea', -⟩ | ⟨-, -, hslow, -⟩)
        · cases hbest.symm.trans hother
        · cases hbest.symm.trans hother
          cases harea.symm.trans harea'
          exact Loop.finishes_const
        · cases hfast.symm.trans hslow
    | false =>
      have hplace : (fun fuel => place fuel width height (t, some i)) = fun fuel =>
          (Loop.run (cleanup t.freeAreas) fuel (0, none)).bind fun freeAreas =>
            some ({ t with freeAreas }, some (area.left, area.top)) := by
        funext fuel
        rw [place, harea, Option.bind_some, hfast]
        exact Option.map_eq_bind
      rw [hplace, Loop.finishes_run_bind_iff]
      constructor
      · rintro ⟨cleaned, hcleaned, h⟩
        obtain ⟨hlength, rfl⟩ := cleanup_returns_iff.mp hcleaned
        obtain rfl := Finishes.unique h Loop.finishes_const
        exact .clean hbest harea hfast hlength
      · rintro (⟨hother, -⟩ | ⟨-, -, hquick⟩ | ⟨hother, harea', -, hlength⟩)
        · cases hbest.symm.trans hother
        · cases hfast.symm.trans hquick
        · cases hbest.symm.trans hother
          cases harea.symm.trans harea'
          exact ⟨t.freeAreas, cleanup_returns_iff.mpr ⟨hlength, rfl⟩, Loop.finishes_const⟩

/-- What a call can do: some turns that grow the area, and an end. -/
theorem allocates_iff {result : AreaAllocator × Option (Int × Int)} : Allocates s width height result ↔
    ∃ t, InCall s width height t ∧ Ends (max width 0) (max height 0) t result := by
  rw [Allocates]
  simp only [allocate]
  rw [Loop.finishes_run_bind_iff]
  constructor
  · rintro ⟨⟨t, found⟩, hreturns, hplace⟩
    obtain ⟨t', hcall, hleave⟩ := Loop.returns_iff_turns.mp hreturns
    obtain ⟨rfl, hbest, hmax⟩ := leave_iff.mp hleave
    exact ⟨t, hcall, (place_finishes_iff hbest hmax).mp hplace⟩
  · rintro ⟨t, hcall, hends⟩
    have hmax : best (max width 0) (max height 0) t.freeAreas = none → t.dueMax ≤ t.due := by
      intro hnone
      cases hends with
      | full _ hmax => exact hmax
      | fast hbest => cases hnone.symm.trans hbest
      | clean hbest => cases hnone.symm.trans hbest
    exact ⟨(t, best (max width 0) (max height 0) t.freeAreas),
      Loop.returns_iff_turns.mpr ⟨t, hcall, leave_iff.mpr ⟨rfl, rfl, hmax⟩⟩, (place_finishes_iff rfl hmax).mpr hends⟩

end Calls

end AreaAllocator

end Lumos.Maths.AreaAllocation
