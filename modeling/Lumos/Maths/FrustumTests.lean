import Lumos.Maths.Projection
import Lumos.Maths.TransformedBox

/-!
# Boxes against frustums

A box is tested by its centre and its half size: on each side of a plane it goes as far from
the centre as the absolute normal says.
-/
namespace Lumos.Maths

open FloatArithmetic FloatLiterals

namespace BoundingBox

/-- `Center`, and what is left from there to the minimum. -/
def centerPoint {K : Type} [FloatLiterals K] (box : BoundingBox K) : Vector3 K :=
  (box.max + box.min) * (literal (1 / 2) : K)

def edge {K : Type} [FloatLiterals K] (box : BoundingBox K) : Vector3 K := box.centerPoint - box.min

end BoundingBox

namespace Frustum

section Tests

variable {K : Type} [FloatLiterals K]

def dist (plane : Plane K) (center : Vector3 K) : K := plane.normal.dotProduct center + plane.d

def absDist (plane : Plane K) (edge : Vector3 K) : K := plane.absNormal.dotProduct edge

/-- The loop over the planes. -/
def testPlanes (center edge : Vector3 K) : Bool → List (Plane K) → Intersection
  | allInside, [] => if allInside then .inside else .intersects
  | allInside, plane :: planes =>
    if lt (dist plane center) (-absDist plane edge) then .outside
    else if lt (dist plane center) (absDist plane edge) then testPlanes center edge false planes
    else testPlanes center edge allInside planes

def isInside (frustum : Frustum K) (box : BoundingBox K) : Intersection :=
  testPlanes box.centerPoint box.edge true frustum.planes

def testPlanesFast (center edge : Vector3 K) : List (Plane K) → Intersection
  | [] => .inside
  | plane :: planes =>
    if lt (dist plane center) (-absDist plane edge) then .outside else testPlanesFast center edge planes

def isInsideFast (frustum : Frustum K) (box : BoundingBox K) : Intersection :=
  testPlanesFast box.centerPoint box.edge frustum.planes

/-! ## The loops -/

variable {center edge : Vector3 K} {planes : List (Plane K)}

/-- Both loops stop at the first plane the box is wholly behind. -/
theorem testPlanes_eq_outside (allInside : Bool) : testPlanes center edge allInside planes = .outside ↔
    ∃ plane ∈ planes, lt (dist plane center) (-absDist plane edge) = true := by
  induction planes generalizing allInside with
  | nil => cases allInside <;> simp [testPlanes]
  | cons plane planes ih =>
    rw [testPlanes]
    by_cases hbehind : lt (dist plane center) (-absDist plane edge) = true
    · simp [hbehind]
    · rw [if_neg hbehind]
      simp only [List.mem_cons, exists_eq_or_imp, hbehind, Bool.false_eq_true, false_or]
      split
      · exact ih false
      · exact ih allInside

theorem testPlanesFast_eq_outside : testPlanesFast center edge planes = .outside ↔
    ∃ plane ∈ planes, lt (dist plane center) (-absDist plane edge) = true := by
  induction planes with
  | nil => simp [testPlanesFast]
  | cons plane planes ih =>
    rw [testPlanesFast]
    by_cases hbehind : lt (dist plane center) (-absDist plane edge) = true
    · simp [hbehind]
    · rw [if_neg hbehind, ih]
      simp [hbehind]

/-- A box that is inside reaches behind none of the planes. -/
theorem of_testPlanes_eq_inside {allInside : Bool} (h : testPlanes center edge allInside planes = .inside) :
    allInside = true ∧ ∀ plane ∈ planes, lt (dist plane center) (absDist plane edge) = false := by
  induction planes generalizing allInside with
  | nil =>
    cases allInside with
    | true => exact ⟨rfl, fun plane hplane => absurd hplane List.not_mem_nil⟩
    | false => cases h
  | cons plane planes ih =>
    rw [testPlanes] at h
    split at h
    · cases h
    · split at h
      · cases (ih h).1
      · next hfront =>
        obtain ⟨hall, hrest⟩ := ih h
        refine ⟨hall, fun other hother => ?_⟩
        rcases List.mem_cons.mp hother with rfl | hmem
        · exact Bool.eq_false_iff.mpr hfront
        · exact hrest other hmem

end Tests

/-! ## In exact arithmetic -/

/-- The absolute normal is that of the normal. -/
def AbsStored (plane : Plane ℝ) : Prop := plane.absNormal = ⟨|plane.normal.x|, |plane.normal.y|, |plane.normal.z|⟩

section Exact

open BoundingBox BoxImage

variable {frustum : Frustum ℝ} {box : BoundingBox ℝ} {plane : Plane ℝ} {point : Vector3 ℝ}

theorem edge_real (box : BoundingBox ℝ) : box.edge = box.halfSize := by
  have hhalf : ∀ low high : ℝ, (high + low) * (literal (1 / 2) : ℝ) - low = (high - low) * (literal (1 / 2) : ℝ) := by
    intro low high
    rw [literal_half]
    ring
  ext
  · exact hhalf _ _
  · exact hhalf _ _
  · exact hhalf _ _

theorem distance_eq_rowValue (plane : Plane ℝ) (point : Vector3 ℝ) :
    plane.distance point = rowValue plane.normal.x plane.normal.y plane.normal.z plane.d point := rfl

theorem absDist_eq_rowReach (h : AbsStored plane) (box : BoundingBox ℝ) : absDist plane box.edge =
    rowReach plane.normal.x plane.normal.y plane.normal.z box.halfSize := by
  rw [absDist, h, edge_real, rowReach, absFloat_real, absFloat_real, absFloat_real]
  rfl

/-- The distances of the points of a box. -/
theorem distance_between (h : AbsStored plane) (hpoint : box.Holds point) :
    dist plane box.centerPoint - absDist plane box.edge ≤ plane.distance point ∧
      plane.distance point ≤ dist plane box.centerPoint + absDist plane box.edge := by
  rw [absDist_eq_rowReach h, distance_eq_rowValue]
  exact rowValue_between _ _ _ _ hpoint

/-- What is outside has no point in front of all planes, what is inside has no other points, and
the fast test finds the same boxes outside. -/
theorem isInside_sound (h : ∀ plane ∈ frustum.planes, AbsStored plane) (box : BoundingBox ℝ) :
    (frustum.isInside box = .outside →
      ∀ point, box.Holds point → ¬ ∀ plane ∈ frustum.planes, 0 ≤ plane.distance point) ∧
    (frustum.isInside box = .inside →
      ∀ point, box.Holds point → ∀ plane ∈ frustum.planes, 0 ≤ plane.distance point) ∧
    (frustum.isInsideFast box = .outside ↔ frustum.isInside box = .outside) := by
  refine ⟨?_, ?_, ?_⟩
  · intro houtside point hpoint hfront
    obtain ⟨plane, hplane, hbehind⟩ := (testPlanes_eq_outside true).mp houtside
    have hlt := (lt_real _ _).mp hbehind
    have hle := (distance_between (h plane hplane) hpoint).2
    have hnonneg := hfront plane hplane
    linarith
  · intro hinside point hpoint plane hplane
    have hle := (lt_eq_false_real _ _).mp ((of_testPlanes_eq_inside hinside).2 plane hplane)
    have hge := (distance_between (h plane hplane) hpoint).1
    linarith
  · rw [isInside, isInsideFast, testPlanes_eq_outside, testPlanesFast_eq_outside]

/-- The planes of a cube, with their normals to the inside. -/
noncomputable def cube : Frustum ℝ :=
  ⟨[], [⟨⟨1, 0, 0⟩, ⟨1, 0, 0⟩, 0⟩, ⟨⟨-1, 0, 0⟩, ⟨1, 0, 0⟩, 1⟩, ⟨⟨0, 1, 0⟩, ⟨0, 1, 0⟩, 0⟩, ⟨⟨0, -1, 0⟩, ⟨0, 1, 0⟩, 1⟩,
    ⟨⟨0, 0, 1⟩, ⟨0, 0, 1⟩, 0⟩, ⟨⟨0, 0, -1⟩, ⟨0, 0, 1⟩, 1⟩]⟩

theorem absStored_cube : ∀ plane ∈ cube.planes, AbsStored plane := by
  intro plane hplane
  simp only [cube, List.mem_cons, List.not_mem_nil, or_false] at hplane
  rcases hplane with rfl | rfl | rfl | rfl | rfl | rfl <;> simp [AbsStored]

theorem isInside_sound_cube : cube.isInsideFast ⟨0, ⟨1, 1, 1⟩⟩ = .outside ↔ cube.isInside ⟨0, ⟨1, 1, 1⟩⟩ = .outside :=
  (isInside_sound absStored_cube ⟨0, ⟨1, 1, 1⟩⟩).2.2

end Exact

end Frustum

end Lumos.Maths
