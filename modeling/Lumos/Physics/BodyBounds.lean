import Lumos.Maths.TransformedBox
import Lumos.Physics.RigidBodyCaches
import Lumos.Physics.Solids

/-!
# The box of a body and its shape

The local box is made of the support points on the three axes. It holds the solid of every
shape but a capsule, whose height the support points leave out.
-/
namespace Lumos.Physics.Dynamics

open Maths FloatArithmetic CollisionDetection SeparatingAxis LazyCache
open scoped RealInnerProductSpace

/-! ## The solids -/

namespace BodyShape

variable (shape : BodyShape ℝ)

/-- The solid of a shape, where the shape has been made. A capsule lies along the first axis,
as its inertia has it. -/
def localSolid : Set (Vector3 ℝ) :=
  match shape.data with
  | .cuboid | .pyramid _ | .hull _ =>
    {v | v.point ∈ convexHull ℝ
      {x | ∃ corner ∈ shape.data.toHull.vertices, (shape.localTransform.apply corner).point = x}}
  | .sphere radius => {v | v.point ∈ Metric.closedBall shape.localTransform.position.point radius}
  | .capsule radius height =>
    {v | ∃ along : ℝ, |along| ≤ height / two ∧
      v.point ∈ Metric.closedBall (shape.localTransform.position + ⟨along, 0, 0⟩).point radius}

/-- What constructors and setters see to, with `float`s for coordinates. -/
structure Stored : Prop where
  scaled : ∃ s, shape.localTransform = Matrix4.scaling s
  range : ∀ v ∈ shape.data.toHull.vertices, ∀ axis, |(shape.localTransform.apply v).get axis| ≤ fltMax

/-- A capsule that is no ball. -/
def IsLongCapsule : Prop := ∃ radius height, shape.data = .capsule radius height ∧ 0 ≤ radius ∧ 0 < height

/-- The axes that the box is made along. -/
noncomputable def unitAxis : Fin 3 → Vector3 ℝ
  | 0 => ⟨1, 0, 0⟩
  | 1 => ⟨0, 1, 0⟩
  | 2 => ⟨0, 0, 1⟩

theorem unitAxis_dotProduct (axis : Fin 3) (v : Vector3 ℝ) : (unitAxis axis).dotProduct v = v.get axis := by
  match axis with
  | 0 => simp [unitAxis, Vector3.dotProduct_real, Vector3.get]
  | 1 => simp [unitAxis, Vector3.dotProduct_real, Vector3.get]
  | 2 => simp [unitAxis, Vector3.dotProduct_real, Vector3.get]

theorem lengthSquared_unitAxis (axis : Fin 3) : (unitAxis axis).lengthSquared = 1 := by
  match axis with
  | 0 => simp [unitAxis, Vector3.lengthSquared_real]
  | 1 => simp [unitAxis, Vector3.lengthSquared_real]
  | 2 => simp [unitAxis, Vector3.lengthSquared_real]

theorem norm_unitAxis (axis : Fin 3) : ‖(unitAxis axis).point‖ = 1 := by
  have hsq : ‖(unitAxis axis).point‖ ^ 2 = 1 := by
    rw [Vector3.norm_point_sq, lengthSquared_unitAxis]
  exact (pow_eq_one_iff_of_nonneg (norm_nonneg _) two_ne_zero).mp hsq

/-! ## Support points -/

section Support

variable {shape}

theorem getVertex_zero_mem {hull : Hull ℝ} (hvertices : hull.vertices ≠ []) : hull.getVertex 0 ∈ hull.vertices := by
  obtain ⟨first, rest, hcons⟩ := List.exists_cons_of_ne_nil hvertices
  rw [Hull.getVertex, hcons]
  exact List.mem_cons_self

/-- The search in a hull of `float`s: where it does not get past the value it starts from, all
vertices are at that value and the first one will do. -/
theorem supports_of_range {hull : Hull ℝ} {localAxis : Vector3 ℝ} (hvertices : hull.vertices ≠ [])
    (hrange : ∀ v ∈ hull.vertices, |localAxis.dotProduct v| ≤ fltMax) :
    hull.Supports localAxis (hull.getMinMaxVerticesInAxis localAxis) := by
  obtain ⟨first, hfirst⟩ := List.exists_mem_of_ne_nil _ hvertices
  have hlow : ∃ v ∈ hull.vertices, localAxis.dotProduct v ≤ fltMax :=
    ⟨first, hfirst, (abs_le.mp (hrange first hfirst)).2⟩
  by_cases hhigh : ∃ v ∈ hull.vertices, -fltMax < localAxis.dotProduct v
  · exact Hull.supports_getMinMaxVerticesInAxis ⟨hlow, hhigh⟩
  · have hsame : ∀ v ∈ hull.vertices, localAxis.dotProduct v = -fltMax := by
      intro v hv
      exact le_antisymm (not_lt.mp fun hlt => hhigh ⟨v, hv, hlt⟩) (abs_le.mp (hrange v hv)).1
    have hmem : ∀ idx, (∃ x ∈ hull.vertices.zipIdx, x.2 = idx) ∨ idx = 0 → hull.getVertex idx ∈ hull.vertices := by
      rintro idx (⟨⟨v, i⟩, hx, rfl⟩ | rfl)
      · obtain ⟨hv, hget⟩ := Hull.mem_of_mem_zipIdx hx
        rw [hget]
        exact hv
      · exact getVertex_zero_mem hvertices
    have hmin : hull.getVertex (hull.getMinMaxVerticesInAxis localAxis).1 ∈ hull.vertices := by
      apply hmem
      obtain ⟨x, hx, hbest⟩ | ⟨hbest, -⟩ := (Hull.best_min hull localAxis).found
      · exact .inl ⟨x, hx, (congrArg Prod.snd hbest).symm⟩
      · exact .inr (congrArg Prod.snd hbest)
    have hmax : hull.getVertex (hull.getMinMaxVerticesInAxis localAxis).2 ∈ hull.vertices := by
      apply hmem
      obtain ⟨x, hx, hbest⟩ | ⟨hbest, -⟩ := (Hull.best_max hull localAxis).found
      · exact .inl ⟨x, hx, (congrArg Prod.snd hbest).symm⟩
      · exact .inr (congrArg Prod.snd hbest)
    constructor
    · exact hmin
    · exact hmax
    · intro v hv
      rw [hsame _ hmin, hsame _ hv]
    · intro v hv
      rw [hsame _ hmax, hsame _ hv]

/-- The correlation of a vertex with an axis in local space is its coordinate. -/
theorem correlation_eq {s : Vector3 ℝ} (axis : Fin 3) (v : Vector3 ℝ) :
    ((Matrix4.scaling s).toMatrix3.transpose.apply (unitAxis axis)).dotProduct v =
      ((Matrix4.scaling s).apply v).get axis := by
  have hdot : ((Matrix4.scaling s).toMatrix3.transpose.apply (unitAxis axis)).dotProduct v =
      (unitAxis axis).dotProduct ((Matrix4.scaling s).apply v) := by
    rw [apply_scaling]
    simp only [Matrix4.scaling, Matrix4.toMatrix3, Matrix3.transpose, Matrix3.apply, Vector3.dotProduct_real]
    ring
  rw [hdot, unitAxis_dotProduct]

/-- The support points on an axis bound the coordinate of the point. -/
def Between (shape : BodyShape ℝ) (axis : Fin 3) (v : Vector3 ℝ) : Prop :=
  (shape.getMinMaxVertexOnAxis (unitAxis axis)).1.get axis ≤ v.get axis ∧
    v.get axis ≤ (shape.getMinMaxVertexOnAxis (unitAxis axis)).2.get axis

theorem between_of_mem_convexHull (hstored : shape.Stored) (axis : Fin 3) {v : Vector3 ℝ}
    (hv : v.point ∈ convexHull ℝ
      {x | ∃ corner ∈ shape.data.toHull.vertices, (shape.localTransform.apply corner).point = x}) :
    let found := shape.data.toHull.getMinMaxVerticesInAxis
      (shape.localTransform.toMatrix3.transpose.apply (unitAxis axis))
    (shape.localTransform.apply (shape.data.toHull.getVertex found.1)).get axis ≤ v.get axis ∧
      v.get axis ≤ (shape.localTransform.apply (shape.data.toHull.getVertex found.2)).get axis := by
  intro found
  obtain ⟨s, hscaled⟩ := hstored.scaled
  have hcorrelation : ∀ w, (shape.localTransform.toMatrix3.transpose.apply (unitAxis axis)).dotProduct w =
      (shape.localTransform.apply w).get axis := by
    intro w
    rw [hscaled, correlation_eq]
  have hvertices : shape.data.toHull.vertices ≠ [] := by
    obtain ⟨x, corner, hcorner, -⟩ := convexHull_nonempty_iff.mp ⟨_, hv⟩
    exact List.ne_nil_of_mem hcorner
  have hsupports : shape.data.toHull.Supports
      (shape.localTransform.toMatrix3.transpose.apply (unitAxis axis)) found := by
    apply supports_of_range hvertices
    intro w hw
    rw [hcorrelation]
    exact hstored.range w hw axis
  rw [← unitAxis_dotProduct, ← unitAxis_dotProduct, ← unitAxis_dotProduct, ← Vector3.inner_point _ v]
  constructor
  · apply le_inner_of_mem_convexHull _ hv
    rintro x ⟨corner, hcorner, rfl⟩
    have hle := hsupports.min_le corner hcorner
    rw [hcorrelation, hcorrelation] at hle
    rw [Vector3.inner_point, unitAxis_dotProduct, unitAxis_dotProduct]
    exact hle
  · apply inner_le_of_mem_convexHull _ hv
    rintro x ⟨corner, hcorner, rfl⟩
    have hle := hsupports.le_max corner hcorner
    rw [hcorrelation, hcorrelation] at hle
    rw [Vector3.inner_point, unitAxis_dotProduct, unitAxis_dotProduct]
    exact hle

theorem between_of_mem_ball {centre v : Vector3 ℝ} {radius : ℝ} (axis : Fin 3)
    (hv : v.point ∈ Metric.closedBall centre.point radius) :
    (centre - unitAxis axis * radius).get axis ≤ v.get axis ∧
      v.get axis ≤ (centre + unitAxis axis * radius).get axis := by
  have habs := abs_inner_sub_le (unitAxis axis).point hv
  rw [norm_unitAxis, one_mul, Vector3.inner_point, Vector3.inner_point, abs_le] at habs
  rw [← unitAxis_dotProduct, ← unitAxis_dotProduct, ← unitAxis_dotProduct, dotProduct_sub_mul, dotProduct_add_mul,
    lengthSquared_unitAxis]
  exact ⟨by linarith [habs.1], by linarith [habs.2]⟩

/-- Unless it is a long capsule, a shape is between its support points. -/
theorem between_of_mem_localSolid (hstored : shape.Stored) (hshort : ¬ shape.IsLongCapsule) {v : Vector3 ℝ}
    (hv : v ∈ shape.localSolid) (axis : Fin 3) : shape.Between axis v := by
  unfold Between
  cases hdata : shape.data with
  | cuboid | pyramid normals | hull mesh =>
    simp only [localSolid, hdata] at hv
    have hspanned : v.point ∈ convexHull ℝ
        {x | ∃ corner ∈ shape.data.toHull.vertices, (shape.localTransform.apply corner).point = x} := by
      simpa only [hdata, Set.mem_ofPred_eq] using hv
    simpa only [getMinMaxVertexOnAxis, hdata] using between_of_mem_convexHull hstored axis hspanned
  | sphere radius =>
    simp only [localSolid, hdata] at hv
    simpa only [getMinMaxVertexOnAxis, hdata] using between_of_mem_ball axis hv
  | capsule radius height =>
    simp only [localSolid, hdata] at hv
    obtain ⟨along, halong, hball⟩ := hv
    have hradius : 0 ≤ radius := dist_nonneg.trans hball
    have hheight : height ≤ 0 := by
      by_contra hpos
      exact hshort ⟨radius, height, hdata, hradius, not_le.mp hpos⟩
    have hzero : along = 0 := abs_nonpos_iff.mp (halong.trans (by rw [two_real]; linarith))
    have hcentre : shape.localTransform.position + ⟨along, 0, 0⟩ = shape.localTransform.position := by
      rw [hzero]
      ext <;> simp
    rw [hcentre] at hball
    simpa only [getMinMaxVertexOnAxis, hdata] using between_of_mem_ball axis hball

end Support

end BodyShape

/-! ## The local box -/

section Merge

variable {box : BoundingBox ℝ} {p v : Vector3 ℝ}

theorem ite_lt_le (a b : ℝ) : (if lt a b then a else b) ≤ a ∧ (if lt a b then a else b) ≤ b := by
  split
  · next h => exact ⟨le_refl a, ((lt_real a b).mp h).le⟩
  · next h => exact ⟨not_lt.mp fun hlt => h ((lt_real a b).mpr hlt), le_refl b⟩

theorem le_ite_lt (a b : ℝ) : a ≤ (if lt b a then a else b) ∧ b ≤ (if lt b a then a else b) := by
  split
  · next h => exact ⟨le_refl a, ((lt_real b a).mp h).le⟩
  · next h => exact ⟨not_lt.mp fun hlt => h ((lt_real b a).mpr hlt), le_refl b⟩

theorem holds_mergePoint : (box.mergePoint p).Holds p where
  x := ⟨(ite_lt_le _ _).1, (le_ite_lt _ _).1⟩
  y := ⟨(ite_lt_le _ _).1, (le_ite_lt _ _).1⟩
  z := ⟨(ite_lt_le _ _).1, (le_ite_lt _ _).1⟩

/-- Merging another point keeps what the box holds. -/
theorem holds_mergePoint_of_holds (hv : box.Holds v) : (box.mergePoint p).Holds v where
  x := ⟨(ite_lt_le _ _).2.trans hv.x.1, hv.x.2.trans (le_ite_lt _ _).2⟩
  y := ⟨(ite_lt_le _ _).2.trans hv.y.1, hv.y.2.trans (le_ite_lt _ _).2⟩
  z := ⟨(ite_lt_le _ _).2.trans hv.z.1, hv.z.2.trans (le_ite_lt _ _).2⟩

theorem holds_foldl_mergePoint (points : List (Vector3 ℝ)) (h : box.Holds v ∨ v ∈ points) :
    (points.foldl BoundingBox.mergePoint box).Holds v := by
  induction points generalizing box with
  | nil => exact h.resolve_right List.not_mem_nil
  | cons q points ih =>
    apply ih
    obtain hbox | hmem := h
    · exact .inl (holds_mergePoint_of_holds hbox)
    · obtain rfl | hrest := List.mem_cons.mp hmem
      · exact .inl holds_mergePoint
      · exact .inr hrest

/-- The box goes no further than what is merged into it. -/
theorem foldl_mergePoint_max_x_le {bound : ℝ} (points : List (Vector3 ℝ)) (hbox : box.max.x ≤ bound)
    (hpoints : ∀ q ∈ points, q.x ≤ bound) : (points.foldl BoundingBox.mergePoint box).max.x ≤ bound := by
  induction points generalizing box with
  | nil => exact hbox
  | cons q points ih =>
    apply ih
    · change (if lt box.max.x q.x then q.x else box.max.x) ≤ bound
      split
      · exact hpoints q List.mem_cons_self
      · exact hbox
    · exact fun r hr => hpoints r (List.mem_cons_of_mem _ hr)

end Merge

namespace BodyShape

variable (shape : BodyShape ℝ)

/-- The six points that are merged. -/
noncomputable def supportPoints : List (Vector3 ℝ) :=
  (List.finRange 3).flatMap fun axis =>
    [(shape.getMinMaxVertexOnAxis (unitAxis axis)).1, (shape.getMinMaxVertexOnAxis (unitAxis axis)).2]

noncomputable def localBox : BoundingBox ℝ := shape.supportPoints.foldl BoundingBox.mergePoint .cleared

variable {shape}

theorem holds_supportPoint (axis : Fin 3) :
    shape.localBox.Holds (shape.getMinMaxVertexOnAxis (unitAxis axis)).1 ∧
      shape.localBox.Holds (shape.getMinMaxVertexOnAxis (unitAxis axis)).2 := by
  constructor
  · apply holds_foldl_mergePoint
    exact .inr (List.mem_flatMap.mpr ⟨axis, List.mem_finRange axis, by simp⟩)
  · apply holds_foldl_mergePoint
    exact .inr (List.mem_flatMap.mpr ⟨axis, List.mem_finRange axis, by simp⟩)

theorem localBox_holds {v : Vector3 ℝ} (h : ∀ axis, shape.Between axis v) : shape.localBox.Holds v where
  x := ⟨(holds_supportPoint 0).1.x.1.trans (h 0).1, (h 0).2.trans (holds_supportPoint 0).2.x.2⟩
  y := ⟨(holds_supportPoint 1).1.y.1.trans (h 1).1, (h 1).2.trans (holds_supportPoint 1).2.y.2⟩
  z := ⟨(holds_supportPoint 2).1.z.1.trans (h 2).1, (h 2).2.trans (holds_supportPoint 2).2.z.2⟩

theorem neg_fltMax_le {a : ℝ} (h : 0 ≤ a) : -(fltMax : ℝ) ≤ a := by
  have hpos : (0 : ℝ) < fltMax := by
    rw [fltMax_real]
    norm_num
  linarith

/-- The box of a capsule is that of a ball. -/
theorem localBox_max_x_le {s : Vector3 ℝ} (hscaled : shape.localTransform = Matrix4.scaling s) {radius height : ℝ}
    (hdata : shape.data = .capsule radius height) (hradius : 0 ≤ radius) : shape.localBox.max.x ≤ radius := by
  apply foldl_mergePoint_max_x_le
  · exact neg_fltMax_le hradius
  · intro q hq
    obtain ⟨axis, -, hmem⟩ := List.mem_flatMap.mp hq
    simp only [getMinMaxVertexOnAxis, hdata, hscaled, List.mem_cons, List.not_mem_nil, or_false] at hmem
    obtain rfl | rfl := hmem <;> fin_cases axis <;>
      simp [unitAxis, Matrix4.scaling, Matrix4.position, hradius]

/-- The tip is beyond. -/
theorem tip_mem {s : Vector3 ℝ} (hscaled : shape.localTransform = Matrix4.scaling s) {radius height : ℝ}
    (hdata : shape.data = .capsule radius height) (hradius : 0 ≤ radius) (hheight : 0 < height) :
    ⟨height / 2 + radius, 0, 0⟩ ∈ shape.localSolid := by
  simp only [localSolid, hdata, Set.mem_ofPred_eq, hscaled]
  refine ⟨height / 2, (abs_of_pos (half_pos hheight)).le, ?_⟩
  rw [Metric.mem_closedBall, dist_eq_norm, ← Vector3.point_sub, ← sq_le_sq₀ (norm_nonneg _) hradius,
    Vector3.norm_point_sq]
  simp only [Vector3.lengthSquared_real, Vector3.sub_x, Vector3.sub_y, Vector3.sub_z, Vector3.add_x, Vector3.add_y,
    Vector3.add_z, Matrix4.scaling, Matrix4.position]
  apply le_of_eq
  ring

end BodyShape

namespace RigidBody3D

variable {body : RigidBody3D ℝ} {shape : BodyShape ℝ}

theorem autoResizeBoundingBox_localBoundingBox (hshape : body.collisionShape = some shape) :
    body.autoResizeBoundingBox.localBoundingBox = shape.localBox := by
  simp only [autoResizeBoundingBox, hshape]
  rfl

/-- The world transform of a body leaves the last coordinate at one. -/
theorem worldSpaceTransform_apply (pose : Pose ℝ) (v : Vector3 ℝ) :
    pose.worldSpaceTransform.apply v = (Matrix3x4.ofMatrix4 pose.worldSpaceTransform).apply v := by
  ext <;> simp [Pose.worldSpaceTransform, Matrix4.ofRotation, Matrix4.apply, Matrix3x4.ofMatrix4, Matrix3x4.apply]

/-- The box is computed again from the local one. -/
theorem getWorldSpaceAABB_autoResizeBoundingBox (hshape : body.collisionShape = some shape)
    (htransform : body.wsTransform.Coherent body.worldSpaceTransform) :
    body.autoResizeBoundingBox.getWorldSpaceAABB.1 = shape.localBox.transformed body.worldSpaceTransform := by
  have hcoherent : body.autoResizeBoundingBox.wsTransform.Coherent
      body.autoResizeBoundingBox.worldSpaceTransform := htransform
  rw [getWorldSpaceAABB_fst hcoherent, worldSpaceAABB, autoResizeBoundingBox_localBoundingBox hshape]
  rfl

/-- The boxes of a body with this shape hold the shape, and boxes are transformed as their
corners are, by both ways of computing it. -/
structure Enclosed (body : RigidBody3D ℝ) (shape : BodyShape ℝ) : Prop where
  localBox : ∀ v ∈ shape.localSolid, body.autoResizeBoundingBox.localBoundingBox.Holds v
  world : ∀ v ∈ shape.localSolid,
    body.autoResizeBoundingBox.getWorldSpaceAABB.1.Holds (body.worldSpaceTransform.apply v)
  corners : ∀ (box : BoundingBox ℝ) (m : Matrix4 ℝ), box.Proper →
    (box.transformed m).Bounds ((Matrix3x4.ofMatrix4 m).apply '' box.corners) ∧
      SSE.transformed box (Matrix3x4.ofMatrix4 m) = box.transformed m

/-- The world box holds the shape unless that is a capsule which is no ball. -/
theorem enclosed_iff (hshape : body.collisionShape = some shape) (hstored : shape.Stored)
    (htransform : body.wsTransform.Coherent body.worldSpaceTransform) :
    body.Enclosed shape ↔ ¬ shape.IsLongCapsule := by
  constructor
  · rintro henclosed ⟨radius, height, hdata, hradius, hheight⟩
    obtain ⟨s, hscaled⟩ := hstored.scaled
    have hholds := henclosed.localBox _ (BodyShape.tip_mem hscaled hdata hradius hheight)
    rw [autoResizeBoundingBox_localBoundingBox hshape] at hholds
    have hle : height / 2 + radius ≤ radius := hholds.x.2.trans (BodyShape.localBox_max_x_le hscaled hdata hradius)
    linarith
  · intro hshort
    have hlocal : ∀ v ∈ shape.localSolid, shape.localBox.Holds v := fun v hv =>
      BodyShape.localBox_holds (BodyShape.between_of_mem_localSolid hstored hshort hv)
    constructor
    · rw [autoResizeBoundingBox_localBoundingBox hshape]
      exact hlocal
    · intro v hv
      rw [getWorldSpaceAABB_autoResizeBoundingBox hshape htransform, worldSpaceTransform_apply]
      exact BoundingBox.holds_transformed _ (hlocal v hv)
    · exact fun box m hbox => ⟨BoundingBox.bounds_transformed m hbox, BoundingBox.sse_transformed_eq m hbox⟩

/-! A cube and a capsule at the origin. -/

noncomputable def atOrigin (shape : BodyShape ℝ) : RigidBody3D ℝ :=
  create ⟨0, 0, 0, 1, ⟨1, 0, 0, 0⟩, 0, 0, false, 1, 1, false, some shape⟩

noncomputable def cube : BodyShape ℝ := ⟨.cuboid (Vector3.fill 1), Vector3.fill 1⟩

noncomputable def capsule : BodyShape ℝ := ⟨⟨.capsule 1 1, .scaling (Vector3.fill 1)⟩, Vector3.fill 1⟩

theorem coherent_atOrigin (shape : BodyShape ℝ) :
    (atOrigin shape).wsTransform.Coherent (atOrigin shape).worldSpaceTransform := Cached.coherent_of_dirty rfl _

theorem stored_cube : cube.Stored where
  scaled := ⟨Vector3.fill 1, rfl⟩
  range := by
    have hone : (1 : ℝ) ≤ fltMax := by
      rw [fltMax_real]
      norm_num
    intro v hv axis
    have hlocal : cube.localTransform.apply v = v := by
      ext <;> simp [cube, ShapeParameters.cuboid, Matrix4.scaling, Matrix4.apply, Vector3.fill]
    have hvertices : v ∈ (Hull.cube : Hull ℝ).vertices := hv
    rw [Hull.cube_vertices] at hvertices
    rw [hlocal]
    refine le_trans (le_of_eq ?_) hone
    fin_cases hvertices <;> fin_cases axis <;> simp [Vector3.get]

theorem enclosed_cube : (atOrigin cube).Enclosed cube :=
  (enclosed_iff rfl stored_cube (coherent_atOrigin cube)).mpr fun ⟨_, _, hdata, _⟩ => nomatch hdata

theorem worldSpaceTransform_atOrigin (shape : BodyShape ℝ) :
    (atOrigin shape).worldSpaceTransform = .scaling (Vector3.fill 1) := by
  simp [atOrigin, create, setCollisionShape, autoResizeBoundingBox, Pose.worldSpaceTransform, Matrix4.ofRotation,
    Quaternion.rotationMatrix, Matrix4.scaling, Vector3.fill]

theorem transformed_max_x (box : BoundingBox ℝ) :
    (box.transformed (.scaling (Vector3.fill 1))).max.x = box.max.x := by
  rw [BoundingBox.transformed_max]
  simp only [BoundingBox.rowValue, BoundingBox.rowReach, Matrix4.scaling, Vector3.fill, absFloat_real, abs_one,
    abs_zero, one_mul, zero_mul, add_zero]
  exact BoundingBox.half_add_half _ _

/-- The tip of a capsule at the origin is not in its world box. -/
theorem capsule_sticks_out : ∃ v ∈ capsule.localSolid,
    ¬ (atOrigin capsule).autoResizeBoundingBox.getWorldSpaceAABB.1.Holds
      ((atOrigin capsule).worldSpaceTransform.apply v) := by
  refine ⟨⟨1 / 2 + 1, 0, 0⟩, BodyShape.tip_mem rfl rfl zero_le_one one_pos, ?_⟩
  intro hholds
  rw [getWorldSpaceAABB_autoResizeBoundingBox rfl (coherent_atOrigin capsule), worldSpaceTransform_atOrigin] at hholds
  have hmax := hholds.x.2
  rw [transformed_max_x] at hmax
  have hle := hmax.trans (BodyShape.localBox_max_x_le (s := Vector3.fill 1) rfl rfl zero_le_one)
  norm_num [Matrix4.scaling, Matrix4.apply, Vector3.fill] at hle

end RigidBody3D

end Lumos.Physics.Dynamics
