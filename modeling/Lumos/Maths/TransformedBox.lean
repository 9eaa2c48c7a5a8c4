import Lumos.Library.BoxImage
import Lumos.Maths.ExactArithmetic
import Lumos.Maths.SSE

/-!
# `BoundingBox::Transformed`

The box around the eight corners of a box is computed from its centre and its size. As it is
compiled with `LUMOS_SSE`, the size is multiplied before the absolute values are taken.
-/
namespace Lumos.Maths

open FloatArithmetic FloatLiterals BoxImage

/-- `Matrix3x4` of the first three rows. -/
def Matrix3x4.ofMatrix4 {K : Type} (m : Matrix4 K) : Matrix3x4 K :=
  ⟨m.m00, m.m01, m.m02, m.m03, m.m10, m.m11, m.m12, m.m13, m.m20, m.m21, m.m22, m.m23⟩

namespace SSE

open Lanes

variable {K : Type} [FloatLiterals K]

/-- A corner of a box, and a one. -/
def loadCorner (v : Vector3 K) : M128 K := movelh ⟨v.x, v.y, 0, 0⟩ (unpacklo ⟨v.z, 0, 0, 0⟩ ⟨1, 0, 0, 0⟩)

/-- `_mm_and_ps` with everything but the signs. -/
def absLanes (a : M128 K) : M128 K := ⟨fabs a.e0, fabs a.e1, fabs a.e2, fabs a.e3⟩

/-- `BoundingBox(min, max)` of two registers. -/
def storeBox (min max : M128 K) : BoundingBox K := ⟨⟨min.e0, min.e1, min.e2⟩, ⟨max.e0, max.e1, max.e2⟩⟩

/-- `BoundingBox::Transformed` -/
def transformed (box : BoundingBox K) (transform : Matrix3x4 K) : BoundingBox K :=
  let minPt := loadCorner box.min
  let maxPt := loadCorner box.max
  let half : K := literal (1 / 2)
  let centerPoint := (minPt + maxPt) * (⟨half, half, half, half⟩ : M128 K)
  let halfSize := centerPoint - minPt
  let m0 := affineRow0 transform
  let m1 := affineRow1 transform
  let m2 := affineRow2 transform
  let newCenter := rowSums (m0 * centerPoint) (m1 * centerPoint) (m2 * centerPoint) 0
  let newDir := rowSums (absLanes (m0 * halfSize)) (absLanes (m1 * halfSize)) (absLanes (m2 * halfSize)) 0
  storeBox (newCenter - newDir) (newCenter + newDir)

end SSE

namespace BoundingBox

/-- The minimum is not beyond the maximum. -/
structure Proper (box : BoundingBox ℝ) : Prop where
  x : box.min.x ≤ box.max.x
  y : box.min.y ≤ box.max.y
  z : box.min.z ≤ box.max.z

/-- A point is in the box. -/
structure Holds (box : BoundingBox ℝ) (v : Vector3 ℝ) : Prop where
  x : box.min.x ≤ v.x ∧ v.x ≤ box.max.x
  y : box.min.y ≤ v.y ∧ v.y ≤ box.max.y
  z : box.min.z ≤ v.z ∧ v.z ≤ box.max.z

/-- Each of the coordinates is that of the minimum or of the maximum. -/
def corners (box : BoundingBox ℝ) : Set (Vector3 ℝ) :=
  {v | (v.x = box.min.x ∨ v.x = box.max.x) ∧ (v.y = box.min.y ∨ v.y = box.max.y) ∧
    (v.z = box.min.z ∨ v.z = box.max.z)}

/-- The bounding box of a set: its coordinates are the extreme ones. -/
structure Bounds (box : BoundingBox ℝ) (s : Set (Vector3 ℝ)) : Prop where
  x : IsLeast (Vector3.x '' s) box.min.x ∧ IsGreatest (Vector3.x '' s) box.max.x
  y : IsLeast (Vector3.y '' s) box.min.y ∧ IsGreatest (Vector3.y '' s) box.max.y
  z : IsLeast (Vector3.z '' s) box.min.z ∧ IsGreatest (Vector3.z '' s) box.max.z

/-! ## The box around the corners -/

/-- The coordinates, numbered. -/
def coordinates (v : Vector3 ℝ) : Fin 3 → ℝ := ![v.x, v.y, v.z]

section Rows

variable {box : BoundingBox ℝ}

/-- The centre and the half extents. -/
noncomputable def middlePoint (box : BoundingBox ℝ) : Vector3 ℝ := (box.max + box.min) * (literal (1 / 2) : ℝ)

noncomputable def halfSize (box : BoundingBox ℝ) : Vector3 ℝ := (box.max - box.min) * (literal (1 / 2) : ℝ)

theorem literal_half : (literal (1 / 2) : ℝ) = 1 / 2 := by
  rw [literal_real]
  norm_num

theorem half_sub_half (low high : ℝ) :
    (high + low) * (literal (1 / 2) : ℝ) - (high - low) * (literal (1 / 2) : ℝ) = low := by
  rw [literal_half]
  ring

theorem half_add_half (low high : ℝ) :
    (high + low) * (literal (1 / 2) : ℝ) + (high - low) * (literal (1 / 2) : ℝ) = high := by
  rw [literal_half]
  ring

theorem halfSize_nonneg (hbox : box.Proper) : ∀ i, 0 ≤ coordinates box.halfSize i := by
  have hhalf : ∀ low high : ℝ, low ≤ high → 0 ≤ (high - low) * (literal (1 / 2) : ℝ) := by
    intro low high h
    rw [literal_half]
    linarith
  intro i
  match i with
  | 0 => exact hhalf _ _ hbox.x
  | 1 => exact hhalf _ _ hbox.y
  | 2 => exact hhalf _ _ hbox.z

theorem mem_corners_iff (v : Vector3 ℝ) :
    v ∈ box.corners ↔ AtCorner (coordinates box.middlePoint) (coordinates box.halfSize) (coordinates v) := by
  have hends : ∀ low high a : ℝ, (a = low ∨ a = high) ↔
      (a = (high + low) * (literal (1 / 2) : ℝ) - (high - low) * (literal (1 / 2) : ℝ) ∨
        a = (high + low) * (literal (1 / 2) : ℝ) + (high - low) * (literal (1 / 2) : ℝ)) := by
    intro low high a
    rw [half_sub_half, half_add_half]
  unfold AtCorner
  rw [Vector3.forall_axis]
  exact and_congr (hends _ _ _) (and_congr (hends _ _ _) (hends _ _ _))

theorem inside_of_holds {v : Vector3 ℝ} (hv : box.Holds v) :
    Inside (coordinates box.middlePoint) (coordinates box.halfSize) (coordinates v) := by
  have habs : ∀ low high a : ℝ, low ≤ a ∧ a ≤ high →
      |a - (high + low) * (literal (1 / 2) : ℝ)| ≤ (high - low) * (literal (1 / 2) : ℝ) := by
    rintro low high a ⟨hlow, hhigh⟩
    rw [literal_half, abs_le]
    exact ⟨by linarith, by linarith⟩
  intro i
  match i with
  | 0 => exact habs _ _ _ hv.x
  | 1 => exact habs _ _ _ hv.y
  | 2 => exact habs _ _ _ hv.z

/-- A row of a matrix with its translation. -/
def rowValue (a b c d : ℝ) (v : Vector3 ℝ) : ℝ := a * v.x + b * v.y + c * v.z + d

/-- What the absolute values of the row make of the half extents. -/
noncomputable def rowReach (a b c : ℝ) (v : Vector3 ℝ) : ℝ := absFloat a * v.x + absFloat b * v.y + absFloat c * v.z

theorem rowValue_eq (a b c d : ℝ) (v : Vector3 ℝ) : rowValue a b c d v = middle ![a, b, c] (coordinates v) + d := by
  rw [middle, Fin.sum_univ_three]
  rfl

theorem rowReach_eq (a b c : ℝ) (v : Vector3 ℝ) : rowReach a b c v = reach ![a, b, c] (coordinates v) := by
  rw [reach, Fin.sum_univ_three, rowReach, absFloat_real, absFloat_real, absFloat_real]
  rfl

theorem coordinates_surjective (x : Fin 3 → ℝ) : ∃ v, coordinates v = x := by
  refine ⟨⟨x 0, x 1, x 2⟩, ?_⟩
  funext i
  match i with
  | 0 => rfl
  | 1 => rfl
  | 2 => rfl

variable (a b c d : ℝ)

/-- The values of a row at the corners are those of a linear function, moved. -/
theorem image_rowValue : rowValue a b c d '' box.corners =
    (fun value => value + d) '' ((fun x => ∑ i, ![a, b, c] i * x i) ''
      {x | AtCorner (coordinates box.middlePoint) (coordinates box.halfSize) x}) := by
  rw [Set.image_image]
  ext value
  constructor
  · rintro ⟨v, hv, rfl⟩
    exact ⟨coordinates v, (mem_corners_iff v).mp hv, (rowValue_eq a b c d v).symm⟩
  · rintro ⟨x, hx, rfl⟩
    obtain ⟨v, rfl⟩ := coordinates_surjective x
    exact ⟨v, (mem_corners_iff v).mpr hx, rowValue_eq a b c d v⟩

theorem isLeast_row (hbox : box.Proper) : IsLeast (rowValue a b c d '' box.corners)
    (rowValue a b c d box.middlePoint - rowReach a b c box.halfSize) := by
  have hmono : Monotone fun value : ℝ => value + d := fun _ _ h => add_le_add_left h d
  have hleast := hmono.map_isLeast (isLeast_corners ![a, b, c] (coordinates box.middlePoint) (halfSize_nonneg hbox))
  rw [image_rowValue, rowValue_eq, rowReach_eq, add_sub_right_comm]
  exact hleast

theorem isGreatest_row (hbox : box.Proper) : IsGreatest (rowValue a b c d '' box.corners)
    (rowValue a b c d box.middlePoint + rowReach a b c box.halfSize) := by
  have hmono : Monotone fun value : ℝ => value + d := fun _ _ h => add_le_add_left h d
  have hgreatest :=
    hmono.map_isGreatest (isGreatest_corners ![a, b, c] (coordinates box.middlePoint) (halfSize_nonneg hbox))
  rw [image_rowValue, rowValue_eq, rowReach_eq, add_right_comm]
  exact hgreatest

theorem rowValue_between {v : Vector3 ℝ} (hv : box.Holds v) :
    rowValue a b c d box.middlePoint - rowReach a b c box.halfSize ≤ rowValue a b c d v ∧
      rowValue a b c d v ≤ rowValue a b c d box.middlePoint + rowReach a b c box.halfSize := by
  have habs := abs_le.mp (abs_sub_middle_le ![a, b, c] (inside_of_holds hv))
  have hvalue : ∑ i, ![a, b, c] i * coordinates v i = middle ![a, b, c] (coordinates v) := rfl
  rw [hvalue] at habs
  rw [rowValue_eq, rowValue_eq, rowReach_eq]
  exact ⟨by linarith [habs.1], by linarith [habs.2]⟩

end Rows

variable {box : BoundingBox ℝ} (m : Matrix4 ℝ)

theorem transformed_min : (box.transformed m).min =
    ⟨rowValue m.m00 m.m01 m.m02 m.m03 box.middlePoint - rowReach m.m00 m.m01 m.m02 box.halfSize,
     rowValue m.m10 m.m11 m.m12 m.m13 box.middlePoint - rowReach m.m10 m.m11 m.m12 box.halfSize,
     rowValue m.m20 m.m21 m.m22 m.m23 box.middlePoint - rowReach m.m20 m.m21 m.m22 box.halfSize⟩ := rfl

theorem transformed_max : (box.transformed m).max =
    ⟨rowValue m.m00 m.m01 m.m02 m.m03 box.middlePoint + rowReach m.m00 m.m01 m.m02 box.halfSize,
     rowValue m.m10 m.m11 m.m12 m.m13 box.middlePoint + rowReach m.m10 m.m11 m.m12 box.halfSize,
     rowValue m.m20 m.m21 m.m22 m.m23 box.middlePoint + rowReach m.m20 m.m21 m.m22 box.halfSize⟩ := rfl

/-- `Transformed` is the bounding box of the transformed corners. -/
theorem bounds_transformed (hbox : box.Proper) :
    (box.transformed m).Bounds ((Matrix3x4.ofMatrix4 m).apply '' box.corners) := by
  constructor
  · rw [Set.image_image, transformed_min, transformed_max]
    exact ⟨isLeast_row _ _ _ _ hbox, isGreatest_row _ _ _ _ hbox⟩
  · rw [Set.image_image, transformed_min, transformed_max]
    exact ⟨isLeast_row _ _ _ _ hbox, isGreatest_row _ _ _ _ hbox⟩
  · rw [Set.image_image, transformed_min, transformed_max]
    exact ⟨isLeast_row _ _ _ _ hbox, isGreatest_row _ _ _ _ hbox⟩

/-- What the box holds is in the transformed box when it is transformed itself. -/
theorem holds_transformed {v : Vector3 ℝ} (hv : box.Holds v) :
    (box.transformed m).Holds ((Matrix3x4.ofMatrix4 m).apply v) := by
  constructor
  · rw [transformed_min, transformed_max]
    exact rowValue_between _ _ _ _ hv
  · rw [transformed_min, transformed_max]
    exact rowValue_between _ _ _ _ hv
  · rw [transformed_min, transformed_max]
    exact rowValue_between _ _ _ _ hv

/-! ## The compiled version -/

/-- Where the half extents are not negative it is the same to take the absolute value first. -/
theorem abs_mul_halfSize {low high : ℝ} (h : low ≤ high) (a : ℝ) :
    |a * ((high + low) * (literal (1 / 2) : ℝ) - low)| = absFloat a * ((high - low) * (literal (1 / 2) : ℝ)) := by
  have hhalf : (high + low) * (literal (1 / 2) : ℝ) - low = (high - low) * (literal (1 / 2) : ℝ) := by
    rw [literal_half]
    ring
  have hnonneg : 0 ≤ (high - low) * (literal (1 / 2) : ℝ) := by
    rw [literal_half]
    linarith
  rw [hhalf, abs_mul, abs_of_nonneg hnonneg, absFloat_real]

theorem sse_one : ((1 : ℝ) + 1) * (literal (1 / 2) : ℝ) = 1 := by
  rw [literal_half]
  norm_num

theorem sse_transformed_eq (hbox : box.Proper) :
    SSE.transformed box (Matrix3x4.ofMatrix4 m) = box.transformed m := by
  simp only [SSE.transformed, Lanes.rowSums_eq, Lanes.M128.sum, SSE.storeBox, SSE.absLanes, SSE.loadCorner,
    SSE.affineRow0, SSE.affineRow1, SSE.affineRow2, Matrix3x4.ofMatrix4, Lanes.movelh, Lanes.unpacklo,
    Lanes.add_def, Lanes.sub_def, Lanes.mul_def, fabs_real, abs_mul_halfSize hbox.x, abs_mul_halfSize hbox.y,
    abs_mul_halfSize hbox.z, sse_one, sub_self, mul_zero, abs_zero, add_zero, mul_one, add_comm box.min.x,
    add_comm box.min.y, add_comm box.min.z]
  rfl

end BoundingBox

end Lumos.Maths
