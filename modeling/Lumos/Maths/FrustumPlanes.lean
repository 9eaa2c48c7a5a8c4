import Lumos.Maths.Projection
import Lumos.Maths.TransformedBox

/-!
# The planes of a transformed box

Each of the six planes goes through three corners of the box. A transform multiplies all
distances from them by its determinant, and where that is negative the planes are flipped.
-/
namespace Lumos.Maths

open FloatArithmetic FloatLiterals

namespace BoundingBox

variable {K : Type}

/-- The corners in the order of `vertices_`. -/
def frustumCorners (box : BoundingBox K) : List (Vector3 K) :=
  [⟨box.max.x, box.max.y, box.min.z⟩, ⟨box.max.x, box.min.y, box.min.z⟩, ⟨box.min.x, box.min.y, box.min.z⟩,
   ⟨box.min.x, box.max.y, box.min.z⟩, ⟨box.max.x, box.max.y, box.max.z⟩, ⟨box.max.x, box.min.y, box.max.z⟩,
   ⟨box.min.x, box.min.y, box.max.z⟩, ⟨box.min.x, box.max.y, box.max.z⟩]

end BoundingBox

/-- `Define`, from a bounding box. -/
def Frustum.defineBox {K : Type} [FloatLiterals K] (box : BoundingBox K) (transform : Matrix3x4 K) : Frustum K :=
  updatePlanes (transform.apply ⟨box.max.x, box.max.y, box.min.z⟩) (transform.apply ⟨box.max.x, box.min.y, box.min.z⟩)
    (transform.apply ⟨box.min.x, box.min.y, box.min.z⟩) (transform.apply ⟨box.min.x, box.max.y, box.min.z⟩)
    (transform.apply ⟨box.max.x, box.max.y, box.max.z⟩) (transform.apply ⟨box.max.x, box.min.y, box.max.z⟩)
    (transform.apply ⟨box.min.x, box.min.y, box.max.z⟩) (transform.apply ⟨box.min.x, box.max.y, box.max.z⟩)

/-! ## Sides of a plane -/

/-- On which side of the plane through three points a point is, and how far in terms of them. -/
noncomputable def side (a b c point : Vector3 ℝ) : ℝ := ((b - a).crossProduct (c - a)).dotProduct (point - a)

theorem exists_distance (v0 v1 v2 : Vector3 ℝ) :
    ∃ s : ℝ, 0 < s ∧ ∀ point, (Plane.define v0 v1 v2).distance point = s * side v0 v1 v2 point := by
  obtain ⟨s, hs, hnormal⟩ := ((v1 - v0).crossProduct (v2 - v0)).exists_normalize
  refine ⟨s, hs, fun point => ?_⟩
  rw [Plane.distance, Plane.define, hnormal, side]
  simp only [Vector3.dotProduct_real, Vector3.mul_x, Vector3.mul_y, Vector3.mul_z, Vector3.sub_x, Vector3.sub_y,
    Vector3.sub_z]
  ring

theorem Plane.distance_flip (plane : Plane ℝ) (point : Vector3 ℝ) : plane.flip.distance point = -plane.distance point := by
  simp only [Plane.flip, Plane.distance, Vector3.dotProduct_real, Vector3.neg_x, Vector3.neg_y, Vector3.neg_z]
  ring

/-- The determinant of the linear part. -/
def Matrix3x4.determinant (m : Matrix3x4 ℝ) : ℝ :=
  m.m00 * (m.m11 * m.m22 - m.m12 * m.m21) - m.m01 * (m.m10 * m.m22 - m.m12 * m.m20) +
    m.m02 * (m.m10 * m.m21 - m.m11 * m.m20)

theorem side_apply (m : Matrix3x4 ℝ) (a b c point : Vector3 ℝ) :
    side (m.apply a) (m.apply b) (m.apply c) (m.apply point) = m.determinant * side a b c point := by
  simp only [side, Matrix3x4.apply, Matrix3x4.determinant, Vector3.dotProduct_real, Vector3.crossProduct_x,
    Vector3.crossProduct_y, Vector3.crossProduct_z, Vector3.sub_x, Vector3.sub_y, Vector3.sub_z]
  ring

namespace BoundingBox

variable {box : BoundingBox ℝ} {point : Vector3 ℝ}

/-- The extents are positive. -/
structure Solid (box : BoundingBox ℝ) : Prop where
  x : box.min.x < box.max.x
  y : box.min.y < box.max.y
  z : box.min.z < box.max.z

/-- The corners the planes are defined from, in the order of the planes. -/
noncomputable def faces (box : BoundingBox ℝ) : List (Vector3 ℝ × Vector3 ℝ × Vector3 ℝ) :=
  [(⟨box.min.x, box.min.y, box.min.z⟩, ⟨box.max.x, box.min.y, box.min.z⟩, ⟨box.max.x, box.max.y, box.min.z⟩),
   (⟨box.min.x, box.max.y, box.min.z⟩, ⟨box.min.x, box.max.y, box.max.z⟩, ⟨box.min.x, box.min.y, box.max.z⟩),
   (⟨box.max.x, box.min.y, box.min.z⟩, ⟨box.max.x, box.min.y, box.max.z⟩, ⟨box.max.x, box.max.y, box.max.z⟩),
   (⟨box.max.x, box.max.y, box.min.z⟩, ⟨box.max.x, box.max.y, box.max.z⟩, ⟨box.min.x, box.max.y, box.max.z⟩),
   (⟨box.min.x, box.min.y, box.max.z⟩, ⟨box.max.x, box.min.y, box.max.z⟩, ⟨box.max.x, box.min.y, box.min.z⟩),
   (⟨box.max.x, box.min.y, box.max.z⟩, ⟨box.min.x, box.min.y, box.max.z⟩, ⟨box.min.x, box.max.y, box.max.z⟩)]

theorem holds_corner (hbox : box.Solid) {corner : Vector3 ℝ} (h : corner ∈ box.frustumCorners) : box.Holds corner := by
  have hx := hbox.x.le
  have hy := hbox.y.le
  have hz := hbox.z.le
  simp only [frustumCorners, List.mem_cons, List.not_mem_nil, or_false] at h
  rcases h with rfl | rfl | rfl | rfl | rfl | rfl | rfl | rfl <;> constructor <;> simp [hx, hy, hz]

/-- The points of the box are on the inner side of all six. -/
theorem side_nonneg (hbox : box.Solid) (hpoint : box.Holds point) {face : Vector3 ℝ × Vector3 ℝ × Vector3 ℝ}
    (hface : face ∈ box.faces) : 0 ≤ side face.1 face.2.1 face.2.2 point := by
  have hx := sub_pos.mpr hbox.x
  have hy := sub_pos.mpr hbox.y
  have hz := sub_pos.mpr hbox.z
  have hleft := sub_nonneg.mpr hpoint.x.1
  have hright := sub_nonneg.mpr hpoint.x.2
  have hdown := sub_nonneg.mpr hpoint.y.1
  have hup := sub_nonneg.mpr hpoint.y.2
  have hnear := sub_nonneg.mpr hpoint.z.1
  have hfar := sub_nonneg.mpr hpoint.z.2
  simp only [faces, List.mem_cons, List.not_mem_nil, or_false] at hface
  rcases hface with rfl | rfl | rfl | rfl | rfl | rfl <;>
    simp only [side, Vector3.dotProduct_real, Vector3.crossProduct_x, Vector3.crossProduct_y, Vector3.crossProduct_z,
      Vector3.sub_x, Vector3.sub_y, Vector3.sub_z]
  · have hproduct := mul_nonneg (mul_pos hx hy).le hnear
    linarith
  · have hproduct := mul_nonneg (mul_pos hy hz).le hleft
    linarith
  · have hproduct := mul_nonneg (mul_pos hy hz).le hright
    linarith
  · have hproduct := mul_nonneg (mul_pos hx hz).le hup
    linarith
  · have hproduct := mul_nonneg (mul_pos hx hz).le hdown
    linarith
  · have hproduct := mul_nonneg (mul_pos hx hy).le hfar
    linarith

/-- The corner by which it is seen whether the planes are inverted. -/
theorem side_near_pos (hbox : box.Solid) :
    0 < side ⟨box.min.x, box.min.y, box.min.z⟩ ⟨box.max.x, box.min.y, box.min.z⟩ ⟨box.max.x, box.max.y, box.min.z⟩
      ⟨box.max.x, box.min.y, box.max.z⟩ := by
  have hproduct := mul_pos (mul_pos (sub_pos.mpr hbox.x) (sub_pos.mpr hbox.y)) (sub_pos.mpr hbox.z)
  simp only [side, Vector3.dotProduct_real, Vector3.crossProduct_x, Vector3.crossProduct_y, Vector3.crossProduct_z,
    Vector3.sub_x, Vector3.sub_y, Vector3.sub_z]
  linarith

end BoundingBox

namespace Frustum

variable {box : BoundingBox ℝ}

/-- The plane through three transformed corners. -/
noncomputable def facePlane (m : Matrix3x4 ℝ) (face : Vector3 ℝ × Vector3 ℝ × Vector3 ℝ) : Plane ℝ :=
  Plane.define (m.apply face.1) (m.apply face.2.1) (m.apply face.2.2)

theorem exists_distance_facePlane (m : Matrix3x4 ℝ) (face : Vector3 ℝ × Vector3 ℝ × Vector3 ℝ) :
    ∃ s : ℝ, 0 < s ∧ ∀ point,
      (facePlane m face).distance (m.apply point) = s * (m.determinant * side face.1 face.2.1 face.2.2 point) := by
  obtain ⟨s, hs, hdistance⟩ := exists_distance (m.apply face.1) (m.apply face.2.1) (m.apply face.2.2)
  refine ⟨s, hs, fun point => ?_⟩
  rw [facePlane, hdistance, side_apply]

theorem vertices_defineBox (box : BoundingBox ℝ) (m : Matrix3x4 ℝ) :
    (defineBox box m).vertices = box.frustumCorners.map m.apply := rfl

/-- The planes are flipped for a reflection. -/
theorem planes_defineBox (hbox : box.Solid) (m : Matrix3x4 ℝ) : (defineBox box m).planes =
    if m.determinant < 0 then (box.faces.map (facePlane m)).map Plane.flip else box.faces.map (facePlane m) := by
  obtain ⟨s, hs, hdistance⟩ := exists_distance_facePlane m
    (⟨box.min.x, box.min.y, box.min.z⟩, ⟨box.max.x, box.min.y, box.min.z⟩, ⟨box.max.x, box.max.y, box.min.z⟩)
  have hnear := hdistance ⟨box.max.x, box.min.y, box.max.z⟩
  have hpos := box.side_near_pos hbox
  have hiff : s * (m.determinant *
      side ⟨box.min.x, box.min.y, box.min.z⟩ ⟨box.max.x, box.min.y, box.min.z⟩ ⟨box.max.x, box.max.y, box.min.z⟩
        ⟨box.max.x, box.min.y, box.max.z⟩) < 0 ↔ m.determinant < 0 := by
    constructor
    · intro hneg
      by_contra hdet
      exact not_le.mpr hneg (mul_nonneg hs.le (mul_nonneg (not_lt.mp hdet) hpos.le))
    · exact fun hdet => mul_neg_of_pos_of_neg hs (mul_neg_of_neg_of_pos hdet hpos)
  rw [← hnear, ← lt_real] at hiff
  by_cases hdet : m.determinant < 0
  · rw [if_pos hdet]
    exact if_pos (hiff.mpr hdet)
  · rw [if_neg hdet]
    exact if_neg (mt hiff.mp hdet)

/-- All vertices are in front of all planes, whichever way the transform turns the box. -/
theorem distance_defineBox_nonneg (hbox : box.Solid) (m : Matrix3x4 ℝ) :
    ∀ plane ∈ (defineBox box m).planes, ∀ vertex ∈ (defineBox box m).vertices, 0 ≤ plane.distance vertex := by
  intro plane hplane vertex hvertex
  rw [vertices_defineBox] at hvertex
  rw [planes_defineBox hbox] at hplane
  obtain ⟨corner, hcorner, rfl⟩ := List.mem_map.mp hvertex
  have hholds := BoundingBox.holds_corner hbox hcorner
  split at hplane
  · next hneg =>
    obtain ⟨_, hmem, rfl⟩ := List.mem_map.mp hplane
    obtain ⟨face, hface, rfl⟩ := List.mem_map.mp hmem
    obtain ⟨s, hs, hdistance⟩ := exists_distance_facePlane m face
    rw [Plane.distance_flip, hdistance, Left.nonneg_neg_iff]
    exact mul_nonpos_of_nonneg_of_nonpos hs.le
      (mul_nonpos_of_nonpos_of_nonneg hneg.le (BoundingBox.side_nonneg hbox hholds hface))
  · next hnot =>
    obtain ⟨face, hface, rfl⟩ := List.mem_map.mp hplane
    obtain ⟨s, hs, hdistance⟩ := exists_distance_facePlane m face
    rw [hdistance]
    exact mul_nonneg hs.le (mul_nonneg (not_lt.mp hnot) (BoundingBox.side_nonneg hbox hholds hface))

/-- A cube seen in a mirror. -/
theorem distance_defineBox_nonneg_mirrored : (⟨0, ⟨1, 1, 1⟩⟩ : BoundingBox ℝ).Solid ∧
    ∀ plane ∈ (defineBox ⟨0, ⟨1, 1, 1⟩⟩ ⟨-1, 0, 0, 0, 0, 1, 0, 0, 0, 0, 1, 0⟩ : Frustum ℝ).planes,
      ∀ vertex ∈ (defineBox ⟨0, ⟨1, 1, 1⟩⟩ ⟨-1, 0, 0, 0, 0, 1, 0, 0, 0, 0, 1, 0⟩ : Frustum ℝ).vertices,
        0 ≤ plane.distance vertex := by
  have hsolid : (⟨0, ⟨1, 1, 1⟩⟩ : BoundingBox ℝ).Solid := ⟨zero_lt_one, zero_lt_one, zero_lt_one⟩
  exact ⟨hsolid, distance_defineBox_nonneg hsolid _⟩

end Frustum

end Lumos.Maths
