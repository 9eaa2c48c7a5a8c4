import Lumos.Library.RunningBest
import Lumos.Library.SeparatingAxis
import Lumos.Maths.RealArithmetic
import Lumos.Physics.CollisionShape

/-!
# The solids that shapes stand for

A polyhedron is what its vertices span in world space, a sphere is a ball. The support
points of a shape bound the projection of its solid, where the search for the extreme
vertices gets past the values it starts from.
-/
namespace Lumos.Physics.CollisionDetection

open Maths FloatArithmetic RunningBest SeparatingAxis
open scoped RealInnerProductSpace

/-! ## Extreme vertices -/

namespace Hull

variable {hull : Hull ℝ} {localAxis : Vector3 ℝ}

theorem mem_of_mem_zipIdx {v : Vector3 ℝ} {i : Nat} (h : (v, i) ∈ hull.vertices.zipIdx) :
    v ∈ hull.vertices ∧ hull.getVertex i = v := by
  have hget : hull.vertices[i]? = some v := List.mem_zipIdx_iff_getElem?.mp h
  exact ⟨List.mem_of_getElem? hget, by rw [getVertex, List.getD, hget, Option.getD_some]⟩

theorem exists_mem_zipIdx {v : Vector3 ℝ} (h : v ∈ hull.vertices) : ∃ i, (v, i) ∈ hull.vertices.zipIdx := by
  obtain ⟨i, hget⟩ := List.mem_iff_getElem?.mp h
  exact ⟨i, List.mem_zipIdx_iff_getElem?.mpr hget⟩

/-- One vertex in the search of `GetMinMaxVerticesInAxis`. -/
noncomputable def Extremes.visit (localAxis : Vector3 ℝ) (found : Extremes ℝ) (pos : Vector3 ℝ × Nat) :
    Extremes ℝ :=
  let correlation := localAxis.dotProduct pos.1
  let found := if lt found.maxCorrelation correlation then
    { found with maxCorrelation := correlation, maxVertex := pos.2 } else found
  if le correlation found.minCorrelation then
    { found with minCorrelation := correlation, minVertex := pos.2 } else found

theorem visit_min (localAxis : Vector3 ℝ) (found : Extremes ℝ) (pos : Vector3 ℝ × Nat) :
    keep le (fun pos => localAxis.dotProduct pos.1) Prod.snd (found.minCorrelation, found.minVertex) pos =
      ((found.visit localAxis pos).minCorrelation, (found.visit localAxis pos).minVertex) := by
  cases hmax : lt found.maxCorrelation (localAxis.dotProduct pos.1) <;>
    cases hmin : le (localAxis.dotProduct pos.1) found.minCorrelation <;>
    simp [keep, Extremes.visit, hmax, hmin]

theorem visit_max (localAxis : Vector3 ℝ) (found : Extremes ℝ) (pos : Vector3 ℝ × Nat) :
    keep (fun a b => lt b a) (fun pos => localAxis.dotProduct pos.1) Prod.snd
        (found.maxCorrelation, found.maxVertex) pos =
      ((found.visit localAxis pos).maxCorrelation, (found.visit localAxis pos).maxVertex) := by
  cases hmax : lt found.maxCorrelation (localAxis.dotProduct pos.1) <;>
    cases hmin : le (localAxis.dotProduct pos.1) found.minCorrelation <;>
    simp [keep, Extremes.visit, hmax, hmin]

/-- What the search for the extreme vertices ends with. -/
noncomputable def extremes (hull : Hull ℝ) (localAxis : Vector3 ℝ) : Extremes ℝ :=
  hull.vertices.zipIdx.foldl (Extremes.visit localAxis) ⟨0, 0, fltMax, -fltMax⟩

theorem getMinMaxVerticesInAxis_eq :
    hull.getMinMaxVerticesInAxis localAxis =
      ((hull.extremes localAxis).minVertex, (hull.extremes localAxis).maxVertex) := rfl

theorem best_min (hull : Hull ℝ) (localAxis : Vector3 ℝ) :
    Best le (fun pos => localAxis.dotProduct pos.1) Prod.snd (fun a b => a ≤ b) (fltMax, 0)
      hull.vertices.zipIdx ((hull.extremes localAxis).minCorrelation, (hull.extremes localAxis).minVertex) := by
  rw [extremes, ← List.foldl_hom (fun found : Extremes ℝ => (found.minCorrelation, found.minVertex))
    (visit_min localAxis)]
  apply best_foldl
  · exact fun a b h => (le_real a b).mp h
  · intro a b h
    have hlt : ¬ a ≤ b := fun hle => by simp [(le_real a b).mpr hle] at h
    exact (not_le.mp hlt).le

theorem best_max (hull : Hull ℝ) (localAxis : Vector3 ℝ) :
    Best (fun a b => lt b a) (fun pos => localAxis.dotProduct pos.1) Prod.snd (fun a b => b ≤ a) (-fltMax, 0)
      hull.vertices.zipIdx ((hull.extremes localAxis).maxCorrelation, (hull.extremes localAxis).maxVertex) := by
  rw [extremes, ← List.foldl_hom (fun found : Extremes ℝ => (found.maxCorrelation, found.maxVertex))
    (visit_max localAxis)]
  apply best_foldl
  · exact fun a b h => ((lt_real b a).mp h).le
  · intro a b h
    have hle : ¬ b < a := fun hlt => by simp [(lt_real b a).mpr hlt] at h
    exact not_lt.mp hle

/-- The support vertices: of the hull, and with no vertex beyond them. -/
structure Supports (hull : Hull ℝ) (localAxis : Vector3 ℝ) (found : Nat × Nat) : Prop where
  min_mem : hull.getVertex found.1 ∈ hull.vertices
  max_mem : hull.getVertex found.2 ∈ hull.vertices
  min_le : ∀ v ∈ hull.vertices, localAxis.dotProduct (hull.getVertex found.1) ≤ localAxis.dotProduct v
  le_max : ∀ v ∈ hull.vertices, localAxis.dotProduct v ≤ localAxis.dotProduct (hull.getVertex found.2)

/-- The search gets past the values it starts from. -/
structure InRange (hull : Hull ℝ) (localAxis : Vector3 ℝ) : Prop where
  low : ∃ v ∈ hull.vertices, localAxis.dotProduct v ≤ fltMax
  high : ∃ v ∈ hull.vertices, -fltMax < localAxis.dotProduct v

theorem supports_getMinMaxVerticesInAxis (h : InRange hull localAxis) :
    Supports hull localAxis (hull.getMinMaxVerticesInAxis localAxis) := by
  obtain ⟨low, hlow, hle⟩ := h.low
  obtain ⟨lowIdx, hlowIdx⟩ := exists_mem_zipIdx hlow
  obtain ⟨high, hhigh, hlt⟩ := h.high
  obtain ⟨highIdx, hhighIdx⟩ := exists_mem_zipIdx hhigh
  obtain ⟨⟨vMin, iMin⟩, hmemMin, hmin⟩ := (best_min hull localAxis).exists_item hlowIdx ((le_real _ _).mpr hle)
  obtain ⟨⟨vMax, iMax⟩, hmemMax, hmax⟩ := (best_max hull localAxis).exists_item hhighIdx ((lt_real _ _).mpr hlt)
  obtain ⟨hvMin, hgetMin⟩ := mem_of_mem_zipIdx hmemMin
  obtain ⟨hvMax, hgetMax⟩ := mem_of_mem_zipIdx hmemMax
  have hminVertex : (hull.extremes localAxis).minVertex = iMin := congrArg Prod.snd hmin
  have hmaxVertex : (hull.extremes localAxis).maxVertex = iMax := congrArg Prod.snd hmax
  rw [getMinMaxVerticesInAxis_eq, hminVertex, hmaxVertex]
  constructor
  · rw [hgetMin]
    exact hvMin
  · rw [hgetMax]
    exact hvMax
  · intro v hv
    obtain ⟨i, hi⟩ := exists_mem_zipIdx hv
    have hbest := (best_min hull localAxis).le_value _ hi
    rw [hgetMin]
    rw [hmin] at hbest
    exact hbest
  · intro v hv
    obtain ⟨i, hi⟩ := exists_mem_zipIdx hv
    have hbest := (best_max hull localAxis).le_value _ hi
    rw [hmax] at hbest
    rw [hgetMax]
    exact hbest

theorem cube_vertices : (cube : Hull ℝ).vertices =
    [⟨-1, -1, -1⟩, ⟨-1, 1, -1⟩, ⟨1, 1, -1⟩, ⟨1, -1, -1⟩, ⟨-1, -1, 1⟩, ⟨-1, 1, 1⟩, ⟨1, 1, 1⟩, ⟨1, -1, 1⟩] := rfl

theorem pyramid_vertices : (pyramid : Hull ℝ).vertices =
    [⟨-1, -1, -1⟩, ⟨-1, -1, 1⟩, ⟨1, -1, 1⟩, ⟨1, -1, -1⟩, ⟨0, 1, 0⟩] := rfl

/-- A hull around its origin is searched in any direction. -/
theorem inRange_of_around (hlow : ∃ v ∈ hull.vertices, localAxis.dotProduct v ≤ 0)
    (hhigh : ∃ v ∈ hull.vertices, 0 ≤ localAxis.dotProduct v) : InRange hull localAxis := by
  have hpos : (0 : ℝ) < fltMax := by
    rw [fltMax_real]
    norm_num
  obtain ⟨low, hlowMem, hlowLe⟩ := hlow
  obtain ⟨high, hhighMem, hhighLe⟩ := hhigh
  exact ⟨⟨low, hlowMem, hlowLe.trans hpos.le⟩, ⟨high, hhighMem, (neg_lt_zero.mpr hpos).trans_le hhighLe⟩⟩

theorem inRange_cube : InRange cube localAxis := by
  have hopposite : localAxis.dotProduct ⟨-1, -1, -1⟩ = -localAxis.dotProduct ⟨1, 1, 1⟩ := by
    simp only [Vector3.dotProduct_real]
    ring
  cases le_total (localAxis.dotProduct ⟨1, 1, 1⟩) 0 with
  | inl hle =>
    apply inRange_of_around
    · exact ⟨⟨1, 1, 1⟩, by simp [cube_vertices], hle⟩
    · exact ⟨⟨-1, -1, -1⟩, by simp [cube_vertices], by linarith⟩
  | inr hle =>
    apply inRange_of_around
    · exact ⟨⟨-1, -1, -1⟩, by simp [cube_vertices], by linarith⟩
    · exact ⟨⟨1, 1, 1⟩, by simp [cube_vertices], hle⟩

theorem inRange_pyramid : InRange pyramid localAxis := by
  have hsum : localAxis.dotProduct ⟨-1, -1, -1⟩ + localAxis.dotProduct ⟨-1, -1, 1⟩ +
      localAxis.dotProduct ⟨1, -1, 1⟩ + localAxis.dotProduct ⟨1, -1, -1⟩ +
      4 * localAxis.dotProduct ⟨0, 1, 0⟩ = 0 := by
    simp only [Vector3.dotProduct_real]
    ring
  apply inRange_of_around
  · by_contra hnone
    simp [pyramid_vertices] at hnone
    linarith
  · by_contra hnone
    simp [pyramid_vertices] at hnone
    linarith

/-- The correlations of the vertices are not all the same. -/
def HasVolume (hull : Hull ℝ) : Prop :=
  ∀ localAxis : Vector3 ℝ,
    (∀ v ∈ hull.vertices, ∀ w ∈ hull.vertices, localAxis.dotProduct v = localAxis.dotProduct w) → localAxis = 0

theorem hasVolume_cube : HasVolume cube := by
  intro localAxis h
  simp only [cube_vertices] at h
  have hx := h ⟨-1, -1, -1⟩ (by simp) ⟨1, -1, -1⟩ (by simp)
  have hy := h ⟨-1, -1, -1⟩ (by simp) ⟨-1, 1, -1⟩ (by simp)
  have hz := h ⟨-1, -1, -1⟩ (by simp) ⟨-1, -1, 1⟩ (by simp)
  simp only [Vector3.dotProduct_real] at hx hy hz
  ext
  · simp only [Vector3.zero_x]
    linarith
  · simp only [Vector3.zero_y]
    linarith
  · simp only [Vector3.zero_z]
    linarith

theorem hasVolume_pyramid : HasVolume pyramid := by
  intro localAxis h
  simp only [pyramid_vertices] at h
  have hx := h ⟨-1, -1, -1⟩ (by simp) ⟨1, -1, -1⟩ (by simp)
  have hy := h ⟨-1, -1, -1⟩ (by simp) ⟨0, 1, 0⟩ (by simp)
  have hz := h ⟨-1, -1, -1⟩ (by simp) ⟨-1, -1, 1⟩ (by simp)
  simp only [Vector3.dotProduct_real] at hx hy hz
  ext
  · simp only [Vector3.zero_x]
    linarith
  · simp only [Vector3.zero_y]
    linarith
  · simp only [Vector3.zero_z]
    linarith

end Hull

/-! ## World space -/

section Placement

variable {p : ShapeParameters ℝ} {s : Vector3 ℝ} (hscaled : p.localTransform = Matrix4.scaling s) (obj : Pose ℝ)

include hscaled

/-- A scaled shape is turned and moved with its body. -/
theorem transform_apply (v : Vector3 ℝ) :
    (p.transform obj).apply v =
      obj.orientation.rotationMatrix.apply ⟨s.x * v.x, s.y * v.y, s.z * v.z⟩ + obj.position := by
  ext <;> simp [ShapeParameters.transform, hscaled, Pose.worldSpaceTransform, Matrix4.ofRotation, Matrix4.product,
    Matrix4.scaling, Matrix4.apply, Matrix3.apply] <;> ring

theorem transform_position : (p.transform obj).position = obj.position := by
  simp [ShapeParameters.transform, hscaled, Pose.worldSpaceTransform, Matrix4.ofRotation, Matrix4.product,
    Matrix4.scaling, Matrix4.position]

/-- The projection of a vertex, by the axis in local space. -/
theorem dotProduct_transform_apply (axis v : Vector3 ℝ) :
    axis.dotProduct ((p.transform obj).apply v) =
      ((p.transform obj).toMatrix3.transpose.apply axis).dotProduct v + axis.dotProduct obj.position := by
  rw [transform_apply hscaled]
  simp [ShapeParameters.transform, hscaled, Pose.worldSpaceTransform, Matrix4.ofRotation, Matrix4.product,
    Matrix4.scaling, Matrix4.toMatrix3, Matrix3.transpose, Matrix3.apply, Vector3.dotProduct_real]
  ring

/-- The axis in local space is turned back and scaled. -/
theorem localAxis_eq (axis : Vector3 ℝ) :
    (p.transform obj).toMatrix3.transpose.apply axis =
      ⟨s.x * (obj.orientation.rotationMatrix.transpose.apply axis).x,
       s.y * (obj.orientation.rotationMatrix.transpose.apply axis).y,
       s.z * (obj.orientation.rotationMatrix.transpose.apply axis).z⟩ := by
  ext <;> simp [ShapeParameters.transform, hscaled, Pose.worldSpaceTransform, Matrix4.ofRotation, Matrix4.product,
    Matrix4.scaling, Matrix4.toMatrix3, Matrix3.transpose, Matrix3.apply] <;> ring

/-- Without a dimension of zero no axis is zero in local space. -/
theorem eq_zero_of_localAxis (hobj : obj.orientation.IsRotation) (hs : s.x ≠ 0 ∧ s.y ≠ 0 ∧ s.z ≠ 0)
    {axis : Vector3 ℝ} (h : (p.transform obj).toMatrix3.transpose.apply axis = 0) : axis = 0 := by
  rw [localAxis_eq hscaled, Vector3.ext_iff] at h
  obtain ⟨hx, hy, hz⟩ := h
  have hturned : obj.orientation.rotationMatrix.transpose.apply axis = 0 := by
    ext
    · exact (mul_eq_zero.mp hx).resolve_left hs.1
    · exact (mul_eq_zero.mp hy).resolve_left hs.2.1
    · exact (mul_eq_zero.mp hz).resolve_left hs.2.2
  rw [← Vector3.lengthSquared_eq_zero, ← lengthSquared_transpose_rotation hobj, hturned]
  exact Vector3.lengthSquared_eq_zero.mpr rfl

end Placement

namespace ShapeParameters

variable (p : ShapeParameters ℝ) (obj : Pose ℝ)

/-- Where the vertices of a body with this shape are. -/
def worldVertices : Set Space := {x | ∃ v ∈ p.data.toHull.vertices, ((p.transform obj).apply v).point = x}

/-- The closed solid of a body with this shape, with this fraction of the radius if it is a
sphere. None is given for a capsule. -/
def solid (fraction : ℝ) : Set Space :=
  match p.data with
  | .cuboid | .pyramid _ | .hull _ => convexHull ℝ (p.worldVertices obj)
  | .sphere radius => Metric.closedBall (p.transform obj).position.point (fraction * radius)
  | .capsule _ _ => ∅

/-- Where the projection onto an axis begins, by the support point. -/
noncomputable def low (axis : Vector3 ℝ) : ℝ := axis.dotProduct (p.getMinMaxVertexOnAxis obj axis).1

/-- Where it ends. -/
noncomputable def high (axis : Vector3 ℝ) : ℝ := axis.dotProduct (p.getMinMaxVertexOnAxis obj axis).2

end ShapeParameters

/-- The vertices of a solid hull are not in one plane wherever the body is. -/
theorem spanning_worldVertices {p : ShapeParameters ℝ} {obj : Pose ℝ} {s : Vector3 ℝ}
    (hscaled : p.localTransform = Matrix4.scaling s) (hs : s.x ≠ 0 ∧ s.y ≠ 0 ∧ s.z ≠ 0)
    (hobj : obj.orientation.IsRotation) (hvolume : p.data.toHull.HasVolume) : Spanning (p.worldVertices obj) := by
  intro axis haxis
  obtain ⟨a, rfl⟩ : ∃ a : Vector3 ℝ, a.point = axis := ⟨Vector3.ofPoint axis, Vector3.point_ofPoint axis⟩
  have hlocal : (p.transform obj).toMatrix3.transpose.apply a = 0 := by
    apply hvolume
    intro v hv w hw
    have hsame := haxis _ ⟨v, hv, rfl⟩ _ ⟨w, hw, rfl⟩
    rw [Vector3.inner_point, Vector3.inner_point, dotProduct_transform_apply hscaled,
      dotProduct_transform_apply hscaled] at hsame
    linarith
  rw [eq_zero_of_localAxis hscaled obj hobj hs hlocal, Vector3.point_zero]

/-- What the constructors and the setters of a shape see to, and a hull that is not out of
reach of the search for its extreme vertices. -/
structure WellMade (p : ShapeParameters ℝ) : Prop where
  scaled : ∃ s, p.localTransform = Matrix4.scaling s
  normals : ∀ normals, p.data = .pyramid normals → ∀ i, (normals i).NearUnit
  reach : ∀ mesh, p.data = .hull mesh → mesh.vertices ≠ [] →
    ∃ v ∈ mesh.vertices, (p.localTransform.apply v).lengthSquared ≤ (fltMax / 2) ^ 2

/-! ## Support points -/

section Support

variable {p : ShapeParameters ℝ} {obj : Pose ℝ} {axis : Vector3 ℝ}

theorem apply_scaling (s v : Vector3 ℝ) : (Matrix4.scaling s).apply v = ⟨s.x * v.x, s.y * v.y, s.z * v.z⟩ := by
  ext <;> simp [Matrix4.scaling, Matrix4.apply]

/-- The correlation of a vertex in local space is within its distance from the body. -/
theorem localCorrelation_sq_le {s : Vector3 ℝ} (hscaled : p.localTransform = Matrix4.scaling s)
    (hobj : obj.orientation.IsRotation) (axis v : Vector3 ℝ) :
    ((p.transform obj).toMatrix3.transpose.apply axis).dotProduct v ^ 2 ≤
      axis.lengthSquared * (p.localTransform.apply v).lengthSquared := by
  have hcorrelation : ((p.transform obj).toMatrix3.transpose.apply axis).dotProduct v =
      axis.dotProduct (obj.orientation.rotationMatrix.apply (p.localTransform.apply v)) := by
    have hworld := dotProduct_transform_apply hscaled obj axis v
    rw [transform_apply hscaled, ← Vector3.inner_point, Vector3.point_add, inner_add_right, Vector3.inner_point,
      Vector3.inner_point] at hworld
    rw [hscaled, apply_scaling]
    linarith
  rw [hcorrelation, ← Vector3.inner_point, ← lengthSquared_rotation hobj (p.localTransform.apply v),
    ← Vector3.norm_point_sq,
    ← Vector3.norm_point_sq, ← mul_pow]
  exact sq_le_sq' (neg_le_of_abs_le (abs_real_inner_le_norm _ _)) (real_inner_le_norm _ _)

theorem lengthSquared_le_of_nearUnit (haxis : axis.NearUnit) : axis.lengthSquared ≤ 2 := by
  cases haxis with
  | inl hzero =>
    rw [Vector3.lengthSquared_eq_zero.mpr hzero]
    norm_num
  | inr hnear =>
    have hle := (abs_le.mp hnear).2
    rw [mEpsilon_real] at hle
    linarith

/-- The search for the extreme vertices works in all shapes that have vertices. -/
theorem inRange_toHull (hp : WellMade p) (hobj : obj.orientation.IsRotation) (haxis : axis.NearUnit)
    (hvertices : p.data.toHull.vertices ≠ []) :
    p.data.toHull.InRange ((p.transform obj).toMatrix3.transpose.apply axis) := by
  cases hdata : p.data with
  | cuboid => exact Hull.inRange_cube
  | pyramid normals => exact Hull.inRange_pyramid
  | sphere radius =>
    rw [hdata] at hvertices
    exact absurd rfl hvertices
  | capsule radius height =>
    rw [hdata] at hvertices
    exact absurd rfl hvertices
  | hull mesh =>
    rw [hdata] at hvertices
    obtain ⟨s, hscaled⟩ := hp.scaled
    obtain ⟨v, hv, hreach⟩ := hp.reach mesh hdata hvertices
    have hpos : (0 : ℝ) < fltMax := by
      rw [fltMax_real]
      norm_num
    have hlength := lengthSquared_le_of_nearUnit haxis
    have hbound : ((p.transform obj).toMatrix3.transpose.apply axis).dotProduct v ^ 2 < fltMax ^ 2 := by
      calc ((p.transform obj).toMatrix3.transpose.apply axis).dotProduct v ^ 2
          ≤ axis.lengthSquared * (p.localTransform.apply v).lengthSquared :=
            localCorrelation_sq_le hscaled hobj axis v
        _ ≤ 2 * (fltMax / 2) ^ 2 :=
          mul_le_mul hlength hreach (Vector3.lengthSquared_nonneg _) two_pos.le
        _ < fltMax ^ 2 := by nlinarith
    have habs := abs_lt_of_sq_lt_sq' hbound hpos.le
    exact ⟨⟨v, hv, habs.2.le⟩, ⟨v, hv, habs.1⟩⟩

/-- The extreme vertices of the hull of a shape bound what its vertices span. -/
theorem between_of_mem_convexHull (hp : WellMade p) (hobj : obj.orientation.IsRotation) (haxis : axis.NearUnit)
    {x : Space} (hx : x ∈ convexHull ℝ (p.worldVertices obj)) :
    axis.dotProduct ((p.transform obj).apply (p.data.toHull.getVertex (p.data.toHull.getMinMaxVerticesInAxis
        ((p.transform obj).toMatrix3.transpose.apply axis)).1)) ≤ ⟪axis.point, x⟫ ∧
      ⟪axis.point, x⟫ ≤ axis.dotProduct ((p.transform obj).apply (p.data.toHull.getVertex
        (p.data.toHull.getMinMaxVerticesInAxis ((p.transform obj).toMatrix3.transpose.apply axis)).2)) := by
  obtain ⟨s, hscaled⟩ := hp.scaled
  have hvertices : p.data.toHull.vertices ≠ [] := by
    obtain ⟨y, v, hv, -⟩ := convexHull_nonempty_iff.mp ⟨x, hx⟩
    exact List.ne_nil_of_mem hv
  have hsupports := Hull.supports_getMinMaxVerticesInAxis (inRange_toHull hp hobj haxis hvertices)
  constructor
  · apply le_inner_of_mem_convexHull _ hx
    rintro y ⟨v, hv, rfl⟩
    rw [Vector3.inner_point, dotProduct_transform_apply hscaled, dotProduct_transform_apply hscaled]
    have hle := hsupports.min_le v hv
    linarith
  · apply inner_le_of_mem_convexHull _ hx
    rintro y ⟨v, hv, rfl⟩
    rw [Vector3.inner_point, dotProduct_transform_apply hscaled, dotProduct_transform_apply hscaled]
    have hle := hsupports.le_max v hv
    linarith

/-- The ends of the projection of a polyhedron are those of vertices. -/
theorem exists_worldVertices_of_inRange (p : ShapeParameters ℝ) (obj : Pose ℝ) (axis : Vector3 ℝ)
    (hrange : p.data.toHull.InRange ((p.transform obj).toMatrix3.transpose.apply axis))
    (hvertices : p.data.toHull.vertices ≠ []) :
    (∃ x ∈ p.worldVertices obj, p.low obj axis = ⟪axis.point, x⟫) ∧
      ∃ x ∈ p.worldVertices obj, p.high obj axis = ⟪axis.point, x⟫ := by
  have hsupports := Hull.supports_getMinMaxVerticesInAxis hrange
  have hends : p.getMinMaxVertexOnAxis obj axis =
      ((p.transform obj).apply (p.data.toHull.getVertex (p.data.toHull.getMinMaxVerticesInAxis
        ((p.transform obj).toMatrix3.transpose.apply axis)).1),
       (p.transform obj).apply (p.data.toHull.getVertex (p.data.toHull.getMinMaxVerticesInAxis
        ((p.transform obj).toMatrix3.transpose.apply axis)).2)) := by
    cases hdata : p.data with
    | cuboid | pyramid normals | hull mesh => simp only [ShapeParameters.getMinMaxVertexOnAxis, hdata]
    | sphere radius | capsule radius height =>
      rw [hdata] at hvertices
      exact absurd rfl hvertices
  constructor
  · refine ⟨_, ⟨_, hsupports.min_mem, rfl⟩, ?_⟩
    rw [ShapeParameters.low, hends, Vector3.inner_point]
  · refine ⟨_, ⟨_, hsupports.max_mem, rfl⟩, ?_⟩
    rw [ShapeParameters.high, hends, Vector3.inner_point]

/-- As much of a radius as a projection onto an axis of `NearUnit` length is sure to cover. -/
noncomputable def clearFraction : ℝ := Real.sqrt (1 - mEpsilon)

theorem clearFraction_pos : 0 < clearFraction := by
  rw [clearFraction, mEpsilon_real]
  apply Real.sqrt_pos.mpr
  norm_num

theorem clearFraction_le_norm (hnear : |axis.lengthSquared - 1| ≤ 1 / 1000000) :
    clearFraction ≤ ‖axis.point‖ := by
  rw [clearFraction, mEpsilon_real]
  apply Real.sqrt_le_iff.mpr
  rw [Vector3.norm_point_sq]
  have hle := (abs_le.mp hnear).1
  exact ⟨norm_nonneg _, by linarith⟩

theorem dotProduct_sub_mul (axis centre : Vector3 ℝ) (radius : ℝ) :
    axis.dotProduct (centre - axis * radius) = axis.dotProduct centre - axis.lengthSquared * radius := by
  simp only [Vector3.dotProduct_real, Vector3.lengthSquared_real, Vector3.sub_x, Vector3.sub_y, Vector3.sub_z,
    Vector3.mul_x, Vector3.mul_y, Vector3.mul_z]
  ring

theorem dotProduct_add_mul (axis centre : Vector3 ℝ) (radius : ℝ) :
    axis.dotProduct (centre + axis * radius) = axis.dotProduct centre + axis.lengthSquared * radius := by
  simp only [Vector3.dotProduct_real, Vector3.lengthSquared_real, Vector3.add_x, Vector3.add_y, Vector3.add_z,
    Vector3.mul_x, Vector3.mul_y, Vector3.mul_z]
  ring

theorem low_sphere (radius : ℝ) (obj : Pose ℝ) (axis : Vector3 ℝ) :
    (ShapeParameters.sphere radius).low obj axis =
      axis.dotProduct obj.position - axis.lengthSquared * radius := by
  rw [← dotProduct_sub_mul, ← transform_position (p := .sphere radius) rfl obj]
  rfl

theorem high_sphere (radius : ℝ) (obj : Pose ℝ) (axis : Vector3 ℝ) :
    (ShapeParameters.sphere radius).high obj axis =
      axis.dotProduct obj.position + axis.lengthSquared * radius := by
  rw [← dotProduct_add_mul, ← transform_position (p := .sphere radius) rfl obj]
  rfl

/-- The projection of a sphere covers that of the ball of a fraction of its radius. -/
theorem between_of_mem_ball {centre : Vector3 ℝ} {radius : ℝ} (haxis : axis.NearUnit) {x : Space}
    (hx : x ∈ Metric.closedBall centre.point (clearFraction * radius)) :
    axis.dotProduct (centre - axis * radius) ≤ ⟪axis.point, x⟫ ∧
      ⟪axis.point, x⟫ ≤ axis.dotProduct (centre + axis * radius) := by
  have hradius : 0 ≤ radius := by
    have hnonneg : 0 ≤ clearFraction * radius := dist_nonneg.trans hx
    exact nonneg_of_mul_nonneg_right hnonneg clearFraction_pos
  have habs := abs_inner_sub_le axis.point hx
  have hcover : ‖axis.point‖ * (clearFraction * radius) ≤ axis.lengthSquared * radius := by
    cases haxis with
    | inl hzero => simp [hzero, Vector3.lengthSquared_real]
    | inr hnear =>
      rw [← Vector3.norm_point_sq, sq, mul_assoc]
      apply mul_le_mul_of_nonneg_left _ (norm_nonneg _)
      exact mul_le_mul_of_nonneg_right (clearFraction_le_norm hnear) hradius
  obtain ⟨hlow, hhigh⟩ := abs_le.mp (habs.trans hcover)
  rw [dotProduct_sub_mul, dotProduct_add_mul, ← Vector3.inner_point]
  exact ⟨by linarith, by linarith⟩

/-- The support points of a shape bound the projection of its solid. -/
theorem between_of_mem_solid (hp : WellMade p) (hobj : obj.orientation.IsRotation) (haxis : axis.NearUnit)
    {x : Space} (hx : x ∈ p.solid obj clearFraction) :
    p.low obj axis ≤ ⟪axis.point, x⟫ ∧ ⟪axis.point, x⟫ ≤ p.high obj axis := by
  cases hdata : p.data with
  | sphere radius =>
    simp only [ShapeParameters.solid, hdata] at hx
    simp only [ShapeParameters.low, ShapeParameters.high, ShapeParameters.getMinMaxVertexOnAxis, hdata]
    exact between_of_mem_ball haxis hx
  | capsule radius height =>
    simp only [ShapeParameters.solid, hdata] at hx
    exact absurd hx (Set.notMem_empty x)
  | cuboid | pyramid normals | hull mesh =>
    simp only [ShapeParameters.solid, hdata] at hx
    have hbetween := between_of_mem_convexHull hp hobj haxis hx
    simpa only [ShapeParameters.low, ShapeParameters.high, ShapeParameters.getMinMaxVertexOnAxis, hdata]
      using hbetween

end Support

theorem wellMade_cuboid (halfdims : Vector3 ℝ) : WellMade (.cuboid halfdims) where
  scaled := ⟨halfdims, rfl⟩
  normals := by
    intro normals h
    cases h
  reach := by
    intro mesh h
    cases h

theorem wellMade_sphere (radius : ℝ) : WellMade (.sphere radius) where
  scaled := ⟨Vector3.fill radius, rfl⟩
  normals := by
    intro normals h
    cases h
  reach := by
    intro mesh h
    cases h

theorem wellMade_pyramid (halfdims : Vector3 ℝ) : WellMade (.pyramid halfdims) where
  scaled := ⟨halfdims, rfl⟩
  normals := by
    intro normals h i
    cases h
    fin_cases i
    · exact Vector3.nearUnit_normalize _
    · exact Vector3.nearUnit_normalize _
    · exact Vector3.nearUnit_normalize _
    · exact Vector3.nearUnit_normalize _
    · apply Vector3.nearUnit_of_unit
      simp [pyramidNormals, Vector3.lengthSquared_real]
  reach := by
    intro mesh h
    cases h

theorem wellMade_defaultPyramid : WellMade .defaultPyramid where
  scaled := ⟨Vector3.fill (1 / two), rfl⟩
  normals := by
    intro normals h i
    cases h
    exact Or.inl rfl
  reach := by
    intro mesh h
    cases h

end Lumos.Physics.CollisionDetection
