import Lumos.Physics.CollisionWrites
import Lumos.Physics.Solids

/-!
# No collision is found of bodies that are apart

In exact arithmetic an axis that separates the projections separates the interiors of the
solids, as long as the support points bound the projections. They do on axes that are zero
or nearly of unit length, and none else gets into the shapes.
-/
namespace Lumos.Physics.CollisionDetection

open Maths FloatArithmetic SeparatingAxis
open scoped RealInnerProductSpace

/-! ## One axis -/

section Axis

variable {axis : Vector3 ℝ} {obj1 obj2 : Pose ℝ} {p1 p2 : ShapeParameters ℝ}

/-- `CheckCollisionAxis`, by where the projections begin and end. -/
theorem checkCollisionAxis_eq : checkCollisionAxis axis obj1 obj2 p1 p2 =
    if le (p1.low obj1 axis) (p2.low obj2 axis) && le (p2.low obj2 axis) (p1.high obj1 axis) then
      some ⟨p2.low obj2 axis - p1.high obj1 axis, axis,
        (p1.getMinMaxVertexOnAxis obj1 axis).2 + axis * (p2.low obj2 axis - p1.high obj1 axis)⟩
    else if le (p2.low obj2 axis) (p1.low obj1 axis) && lt (p1.low obj1 axis) (p2.high obj2 axis) then
      some ⟨p1.low obj1 axis - p2.high obj2 axis, -axis,
        (p1.getMinMaxVertexOnAxis obj1 axis).1 + -axis * (p1.low obj1 axis - p2.high obj2 axis)⟩
    else none := rfl

/-- When `CheckCollisionAxis` returns false. -/
theorem checkCollisionAxis_eq_none_iff :
    checkCollisionAxis axis obj1 obj2 p1 p2 = none ↔
      (p1.low obj1 axis ≤ p2.low obj2 axis → p1.high obj1 axis < p2.low obj2 axis) ∧
        (p2.low obj2 axis ≤ p1.low obj1 axis → p2.high obj2 axis ≤ p1.low obj1 axis) := by
  rw [checkCollisionAxis_eq]
  simp only [Bool.and_eq_true, le_real, lt_real]
  constructor
  · intro h
    split at h
    · cases h
    · split at h
      · cases h
      · rename_i hfirst hsecond
        exact ⟨fun hle => not_le.mp fun hge => hfirst ⟨hle, hge⟩, fun hle => not_lt.mp fun hlt => hsecond ⟨hle, hlt⟩⟩
  · rintro ⟨hfirst, hsecond⟩
    rw [if_neg fun h => absurd h.2 (not_le.mpr (hfirst h.1)), if_neg fun h => absurd h.2 (not_lt.mpr (hsecond h.1))]

/-- An axis that separates the projections is not zero, and one solid is before the other
along it. -/
theorem before_of_separating {s t : Set Space} (h : checkCollisionAxis axis obj1 obj2 p1 p2 = none)
    (hs : ∀ x ∈ s, p1.low obj1 axis ≤ ⟪axis.point, x⟫ ∧ ⟪axis.point, x⟫ ≤ p1.high obj1 axis)
    (ht : ∀ x ∈ t, p2.low obj2 axis ≤ ⟪axis.point, x⟫ ∧ ⟪axis.point, x⟫ ≤ p2.high obj2 axis) :
    Before axis.point s t ∨ Before axis.point t s := by
  obtain ⟨hfirst, hsecond⟩ := checkCollisionAxis_eq_none_iff.mp h
  cases le_total (p1.low obj1 axis) (p2.low obj2 axis) with
  | inl hle =>
    left
    exact before_of_between (fun x hx => (hs x hx).2.trans (hfirst hle).le) fun y hy => (ht y hy).1
  | inr hle =>
    right
    exact before_of_between (fun x hx => (ht x hx).2.trans (hsecond hle)) fun y hy => (hs y hy).1

theorem ne_zero_of_separating (h : checkCollisionAxis axis obj1 obj2 p1 p2 = none) : axis ≠ 0 := by
  rintro rfl
  have hzero : ∀ v : Vector3 ℝ, (0 : Vector3 ℝ).dotProduct v = 0 := by
    intro v
    simp [Vector3.dotProduct_real]
  have hfirst := (checkCollisionAxis_eq_none_iff.mp h).1
  simp only [ShapeParameters.low, ShapeParameters.high, hzero] at hfirst
  exact lt_irrefl _ (hfirst (le_refl _))

end Axis

/-! ## What is in the shapes -/

/-- Made by its constructor and its setters, with axes of `NearUnit` length. -/
structure WellFormed (shape : CollisionShape ℝ) : Prop where
  made : WellMade shape.toShapeParameters
  axes : ∀ axis ∈ shape.axes, axis.NearUnit

theorem nearUnit_rotation {q : Maths.Quaternion ℝ} (hq : q.IsRotation) {axis : Vector3 ℝ} (haxis : axis.NearUnit) :
    (q.rotationMatrix.apply axis).NearUnit := by
  cases haxis with
  | inl hzero =>
    left
    rw [← Vector3.lengthSquared_eq_zero, lengthSquared_rotation hq, Vector3.lengthSquared_eq_zero]
    exact hzero
  | inr hnear =>
    right
    rw [lengthSquared_rotation hq]
    exact hnear

theorem nearUnit_ownAxes {p : ShapeParameters ℝ} {obj : Pose ℝ} (hp : WellMade p)
    (hobj : obj.orientation.IsRotation) {axis : Vector3 ℝ} (haxis : axis ∈ p.ownAxes obj) : axis.NearUnit := by
  have hunit : ∀ v ∈ ([⟨1, 0, 0⟩, ⟨0, 1, 0⟩, ⟨0, 0, 1⟩] : List (Vector3 ℝ)), v.NearUnit := by
    intro v hv
    apply Vector3.nearUnit_of_unit
    fin_cases hv <;> simp [Vector3.lengthSquared_real]
  cases hdata : p.data with
  | cuboid | hull mesh =>
    simp only [ShapeParameters.ownAxes, hdata] at haxis
    obtain ⟨v, hv, rfl⟩ := List.mem_map.mp haxis
    exact nearUnit_rotation hobj (hunit v hv)
  | pyramid normals =>
    simp only [ShapeParameters.ownAxes, hdata] at haxis
    obtain ⟨i, -, rfl⟩ := List.mem_map.mp haxis
    exact nearUnit_rotation hobj (hp.normals normals hdata i)
  | sphere radius | capsule radius height =>
    simp only [ShapeParameters.ownAxes, hdata] at haxis
    cases haxis

theorem wellFormed_write {obj1 obj2 : Pose ℝ} (h1 : obj1.orientation.IsRotation) (h2 : obj2.orientation.IsRotation)
    {shape shape' : CollisionShape ℝ} (hwrite : Write obj1 obj2 shape shape') (hshape : WellFormed shape) :
    WellFormed shape' := by
  cases hwrite with
  | getCollisionAxes obj hobj =>
    refine ⟨hshape.made, fun axis haxis => ?_⟩
    have hrotation : obj.orientation.IsRotation := by
      cases hobj with
      | inl h => rwa [h]
      | inr h => rwa [h]
    cases List.mem_append.mp haxis with
    | inl hown => exact nearUnit_ownAxes hshape.made hrotation hown
    | inr hold => exact hshape.axes axis (List.mem_of_mem_drop hold)
  | getEdges obj => exact ⟨hshape.made, hshape.axes⟩
  | normalize i axis =>
    refine ⟨hshape.made, fun other hother => ?_⟩
    cases List.mem_or_eq_of_mem_set hother with
    | inl hold => exact hshape.axes other hold
    | inr hnew =>
      rw [hnew]
      exact axis.nearUnit_normalize
  | pushBack axis =>
    refine ⟨hshape.made, fun other hother => ?_⟩
    cases List.mem_append.mp hother with
    | inl hold => exact hshape.axes other hold
    | inr hnew =>
      rw [List.mem_singleton.mp hnew]
      exact axis.nearUnit_normalize

theorem wellFormed_create {p : ShapeParameters ℝ} (hp : WellMade p) : WellFormed (.create p) where
  made := hp
  axes := by
    intro axis haxis
    exact Or.inl (List.eq_of_mem_replicate haxis)

theorem wellFormed_setParameters {shape : CollisionShape ℝ} (hshape : WellFormed shape) {p : ShapeParameters ℝ}
    (hp : WellMade p) : WellFormed (shape.setParameters p) where
  made := hp
  axes := hshape.axes

/-! ## Runs -/

/-- Rotations for orientations, and well-formed shapes. -/
structure World.WellFormed (w : World ℝ) : Prop where
  rotation : ∀ body, (w.bodies body).orientation.IsRotation
  shapes : ∀ ref, CollisionDetection.WellFormed (w.shapes ref)

/-- Operations that set rotations, and parameters that constructors and setters make. -/
def Operation.InScope : Operation ℝ → Prop
  | .checkCollision _ _ | .setCollisionShape _ _ => True
  | .setPose _ pose => pose.orientation.IsRotation
  | .setParameters _ p => WellMade p

theorem wellFormed_perform {w w' : World ℝ} {e : Operation ℝ} (hw : w.WellFormed) (he : e.InScope)
    (h : perform w e = some w') : w'.WellFormed := by
  cases e with
  | checkCollision body1 body2 =>
    obtain ⟨found, hfound, rfl⟩ := Option.map_eq_some_iff.mp h
    refine ⟨hw.rotation, fun ref => ?_⟩
    exact (written_checkCollision hfound).invariant
      (fun _ _ => wellFormed_write (hw.rotation body1) (hw.rotation body2)) (hw.shapes ref)
  | setPose body pose =>
    cases h
    refine ⟨fun other => ?_, hw.shapes⟩
    by_cases hsame : other = body
    · subst hsame
      simp only [Function.update_self]
      exact he
    · simp only [Function.update_of_ne hsame]
      exact hw.rotation other
  | setCollisionShape body ref =>
    cases h
    refine ⟨fun other => ?_, hw.shapes⟩
    by_cases hsame : other = body
    · subst hsame
      simp only [Function.update_self]
      exact hw.rotation other
    · simp only [Function.update_of_ne hsame]
      exact hw.rotation other
  | setParameters changed p =>
    simp only [perform] at h
    split at h
    · cases h
      refine ⟨hw.rotation, fun ref => ?_⟩
      by_cases hsame : ref = changed
      · subst hsame
        simp only [modify_self]
        exact wellFormed_setParameters (hw.shapes ref) he
      · simp only [modify_of_ne _ hsame]
        exact hw.shapes ref
    · cases h

theorem wellFormed_run {w w' : World ℝ} {es : List (Operation ℝ)} (hw : w.WellFormed)
    (hes : ∀ e ∈ es, e.InScope) (h : es.foldlM perform w = some w') : w'.WellFormed := by
  induction es generalizing w with
  | nil =>
    cases h
    exact hw
  | cons e es ih =>
    rw [List.foldlM_cons] at h
    obtain ⟨next, hperform, hrest⟩ := Option.bind_eq_some_iff.mp h
    have hnext := wellFormed_perform hw (hes e List.mem_cons_self) hperform
    exact ih hnext (fun e' he' => hes e' (List.mem_cons_of_mem _ he')) hrest

theorem wellFormed_create_world {bodies : Nat → RigidBody3D ℝ} {parameters : Nat → ShapeParameters ℝ}
    (hbodies : ∀ body, (bodies body).orientation.IsRotation) (hparameters : ∀ ref, WellMade (parameters ref)) :
    (World.create bodies parameters).WellFormed :=
  ⟨hbodies, fun ref => wellFormed_create (hparameters ref)⟩

/-! ## Checks -/

/-- The solid of a body, with this fraction of the radius if it is a sphere. -/
def World.solid (w : World ℝ) (body : Nat) (fraction : ℝ) : Set Space :=
  (w.shapes (w.bodies body).collisionShape).solid (w.bodies body).toPose fraction

section Checks

variable {w : World ℝ} (hw : w.WellFormed) {body1 body2 : Nat} {axis : Vector3 ℝ}

include hw

theorem nearUnit_polyhedronTested (haxis : axis ∈ polyhedronTested w.shapes (w.bodies body1) (w.bodies body2)) :
    axis.NearUnit := by
  have hwritten := written_polyhedron w.shapes (w.bodies body1) (w.bodies body2)
  have hshape := hwritten.invariant (fun _ _ => wellFormed_write (hw.rotation body1) (hw.rotation body2))
    (hw.shapes (w.bodies body1).collisionShape)
  exact hshape.axes axis haxis

theorem nearUnit_polyhedronSphereTested
    (haxis : axis ∈ polyhedronSphereTested w.shapes (w.bodies body1) (w.bodies body2)) : axis.NearUnit := by
  have hwritten := written_polyhedronSphere w.shapes (w.bodies body1) (w.bodies body2)
  have hshape := hwritten.invariant (fun _ _ => wellFormed_write (hw.rotation body1) (hw.rotation body2))
    (hw.shapes (complexAndSphere w.shapes (w.bodies body1) (w.bodies body2)).1.collisionShape)
  rw [← axes_polyhedronSphere] at haxis
  exact hshape.axes axis haxis

theorem disjoint_interior_of_separating (haxis : axis.NearUnit)
    (hseparating : Separating w.shapes (w.bodies body1) (w.bodies body2) axis) :
    Disjoint (interior (w.solid body1 clearFraction)) (interior (w.solid body2 clearFraction)) := by
  have hne : axis.point ≠ 0 := by
    rw [← Vector3.point_zero]
    exact fun h => ne_zero_of_separating hseparating (Vector3.point_injective h)
  have hbefore : Before axis.point (w.solid body1 clearFraction) (w.solid body2 clearFraction) ∨
      Before axis.point (w.solid body2 clearFraction) (w.solid body1 clearFraction) :=
    before_of_separating hseparating
      (fun x hx => between_of_mem_solid (hw.shapes _).made (hw.rotation body1) haxis hx)
      (fun x hx => between_of_mem_solid (hw.shapes _).made (hw.rotation body2) haxis hx)
  cases hbefore with
  | inl h => exact h.disjoint_interior hne
  | inr h => exact (h.disjoint_interior hne).symm

end Checks

/-- After every sequence of operations: where a check returns false the interiors of the
solids are disjoint, and on the axes tested the support points bound the projections. -/
theorem notFound_disjoint (bodies : Nat → RigidBody3D ℝ) (parameters : Nat → ShapeParameters ℝ)
    (hbodies : ∀ body, (bodies body).orientation.IsRotation) (hparameters : ∀ ref, WellMade (parameters ref))
    (es : List (Operation ℝ)) (hes : ∀ e ∈ es, e.InScope) (w : World ℝ)
    (hrun : es.foldlM perform (.create bodies parameters) = some w) (body1 body2 : Nat) :
    ((checkPolyhedronCollision w.shapes (w.bodies body1) (w.bodies body2)).1 = none ∨
        (checkPolyhedronSphereCollision w.shapes (w.bodies body1) (w.bodies body2)).1 = none →
      Disjoint (interior (w.solid body1 clearFraction)) (interior (w.solid body2 clearFraction))) ∧
    ∀ axis, axis ∈ polyhedronTested w.shapes (w.bodies body1) (w.bodies body2) ∨
        axis ∈ polyhedronSphereTested w.shapes (w.bodies body1) (w.bodies body2) →
      ∀ body, ∀ x ∈ w.solid body clearFraction,
        (w.shapes (w.bodies body).collisionShape).low (w.bodies body).toPose axis ≤ ⟪axis.point, x⟫ ∧
          ⟪axis.point, x⟫ ≤ (w.shapes (w.bodies body).collisionShape).high (w.bodies body).toPose axis := by
  have hw := wellFormed_run (wellFormed_create_world hbodies hparameters) hes hrun
  constructor
  · rintro (hnone | hnone)
    · obtain ⟨axis, haxis, hseparating⟩ := (checkPolyhedronCollision_eq_none_iff _ _ _).mp hnone
      exact disjoint_interior_of_separating hw (nearUnit_polyhedronTested hw haxis) hseparating
    · obtain ⟨axis, haxis, hseparating⟩ := (checkPolyhedronSphereCollision_eq_none_iff _ _ _).mp hnone
      exact disjoint_interior_of_separating hw (nearUnit_polyhedronSphereTested hw haxis) hseparating
  · intro axis haxis body x hx
    have hnear : axis.NearUnit := haxis.elim (nearUnit_polyhedronTested hw) (nearUnit_polyhedronSphereTested hw)
    exact between_of_mem_solid (hw.shapes _).made (hw.rotation body) hnear hx

/-! ## A normal that is too short -/

/-- Just short of one, with a square that is within the tolerance. -/
noncomputable def shortLength : ℝ := 2499999 / 2500000

/-- How far the centre is along the normal: the radius is one, and the face is nearer than
that. -/
noncomputable def shortReach : ℝ := 6 / 25 * shortLength + 4999999 / 5000000

/-- A pyramid with a normal that is left too short. -/
noncomputable def shortPyramid : ShapeParameters ℝ :=
  .pyramid ⟨0.5, 0.4 * shortLength, 0.6 * shortLength⟩

/-- The pyramid, and a sphere that cuts its face. -/
noncomputable def shortNormal : World ℝ :=
  .create (fun body => ⟨⟨if body = 0 then 0 else ⟨0, 0.6 * shortReach, -0.8 * shortReach⟩, ⟨1, 0, 0, 0⟩⟩, body⟩)
    (fun ref => if ref = 0 then shortPyramid else .sphere 1)

theorem rotationMatrix_one (v : Vector3 ℝ) : (⟨1, 0, 0, 0⟩ : Maths.Quaternion ℝ).rotationMatrix.apply v = v := by
  ext <;> simp [Quaternion.rotationMatrix, Matrix3.apply]

theorem isRotation_one : (⟨1, 0, 0, 0⟩ : Maths.Quaternion ℝ).IsRotation := by
  simp [Quaternion.IsRotation]

theorem pyramidNormals_short :
    pyramidNormals ⟨0.5, 0.4 * shortLength, 0.6 * shortLength⟩ 0 =
      ⟨0, 0.6 * shortLength, -0.8 * shortLength⟩ := by
  have hcross : ((Matrix4.scaling ⟨0.5, 0.4 * shortLength, 0.6 * shortLength⟩).apply ⟨-1, -1, -1⟩ -
        (Matrix4.scaling ⟨0.5, 0.4 * shortLength, 0.6 * shortLength⟩).apply ⟨1, -1, -1⟩).crossProduct
      ((Matrix4.scaling ⟨0.5, 0.4 * shortLength, 0.6 * shortLength⟩).apply ⟨0, 1, 0⟩ -
        (Matrix4.scaling ⟨0.5, 0.4 * shortLength, 0.6 * shortLength⟩).apply ⟨1, -1, -1⟩) =
      ⟨0, 0.6 * shortLength, -0.8 * shortLength⟩ := by
    rw [apply_scaling, apply_scaling, apply_scaling, Vector3.crossProduct_real]
    ext <;> simp <;> ring
  change (Vector3.crossProduct _ _).normalize = _
  rw [hcross]
  apply Vector3.normalize_of_near
  rw [Vector3.lengthSquared_real, shortLength, abs_le]
  norm_num

/-- The pyramid of `shortNormal`, and its pose. -/
theorem shortNormal_vertices {x : Space}
    (hx : x ∈ shortPyramid.worldVertices
      ⟨0, ⟨1, 0, 0, 0⟩⟩) :
    ⟪(⟨0, 0.6 * shortLength, -0.8 * shortLength⟩ : Vector3 ℝ).point, x⟫ ≤ 6 / 25 * shortLength ^ 2 := by
  have hshort : 0 < shortLength ^ 2 := by
    rw [shortLength]
    norm_num
  obtain ⟨v, hv, rfl⟩ := hx
  rw [transform_apply (p := shortPyramid) rfl, rotationMatrix_one,
    Vector3.inner_point]
  change v ∈ (Hull.pyramid : Hull ℝ).vertices at hv
  rw [Hull.pyramid_vertices] at hv
  fin_cases hv <;> simp [Vector3.dotProduct_real] <;> nlinarith

theorem shortNormal_notFound :
    (checkPolyhedronSphereCollision shortNormal.shapes (shortNormal.bodies 0) (shortNormal.bodies 1)).1 = none := by
  rw [checkPolyhedronSphereCollision_eq_none_iff]
  refine ⟨⟨0, 0.6 * shortLength, -0.8 * shortLength⟩, ?_, ?_⟩
  · apply mem_polyhedronSphereTested
    change _ ∈ shortPyramid.ownAxes ⟨0, ⟨1, 0, 0, 0⟩⟩
    apply List.mem_map.mpr
    refine ⟨0, List.mem_finRange 0, ?_⟩
    rw [rotationMatrix_one, pyramidNormals_short]
  · obtain ⟨⟨x, hx, hlow⟩, ⟨y, hy, hhigh⟩⟩ :=
      exists_worldVertices_of_inRange shortPyramid ⟨0, ⟨1, 0, 0, 0⟩⟩
        ⟨0, 0.6 * shortLength, -0.8 * shortLength⟩ Hull.inRange_pyramid (List.cons_ne_nil _ _)
    have hlowLe := shortNormal_vertices hx
    have hhighLe := shortNormal_vertices hy
    have hsphere : 6 / 25 * shortLength ^ 2 <
        (ShapeParameters.sphere 1).low ⟨⟨0, 0.6 * shortReach, -0.8 * shortReach⟩, ⟨1, 0, 0, 0⟩⟩
          ⟨0, 0.6 * shortLength, -0.8 * shortLength⟩ := by
      rw [low_sphere, Vector3.dotProduct_real, Vector3.lengthSquared_real, shortReach, shortLength]
      norm_num
    rw [← hlow] at hlowLe
    rw [← hhigh] at hhighLe
    apply checkCollisionAxis_eq_none_iff.mpr
    exact ⟨fun _ => hhighLe.trans_lt hsphere, fun hle => absurd hle (not_le.mpr (hlowLe.trans_lt hsphere))⟩

/-- A point is in a ball by the square of its distance. -/
theorem mem_interior_ball {x centre : Vector3 ℝ} {radius : ℝ} (hradius : 0 ≤ radius)
    (h : (x - centre).lengthSquared < radius ^ 2) :
    x.point ∈ interior (Metric.closedBall centre.point radius) := by
  apply Metric.ball_subset_interior_closedBall
  rw [Metric.mem_ball, dist_eq_norm, ← Vector3.point_sub]
  apply lt_of_pow_lt_pow_left₀ 2 hradius
  rw [Vector3.norm_point_sq]
  exact h

theorem combination_mem {t : Set Space} (ht : Convex ℝ t) {a b : Vector3 ℝ} (ha : a.point ∈ t) (hb : b.point ∈ t)
    {k : ℝ} (hk : 0 ≤ k ∧ k ≤ 1) : (a * k + b * (1 - k)).point ∈ t := by
  rw [Vector3.point_add, Vector3.point_mul, Vector3.point_mul]
  exact ht ha hb hk.1 (sub_nonneg.mpr hk.2) (add_sub_cancel k 1)

theorem shortNormal_meet :
    ¬ Disjoint (interior (shortNormal.solid 0 1)) (interior (shortNormal.solid 1 1)) := by
  have hspanning : Spanning (shortPyramid.worldVertices
      ⟨0, ⟨1, 0, 0, 0⟩⟩) := by
    apply spanning_worldVertices (p := shortPyramid) rfl _ isRotation_one
      Hull.hasVolume_pyramid
    rw [shortLength]
    norm_num
  have hvertex : ∀ v ∈ (Hull.pyramid : Hull ℝ).vertices,
      Vector3.point ⟨0.5 * v.x, 0.4 * shortLength * v.y, 0.6 * shortLength * v.z⟩ ∈ shortNormal.solid 0 1 := by
    intro v hv
    apply subset_convexHull
    refine ⟨v, hv, congrArg Vector3.point ?_⟩
    change (shortPyramid.transform ⟨0, ⟨1, 0, 0, 0⟩⟩).apply v = _
    rw [transform_apply (p := shortPyramid) rfl, rotationMatrix_one]
    ext <;> simp
  have hconvex : Convex ℝ (shortNormal.solid 0 1) := convex_convexHull ℝ _
  have hmid := combination_mem hconvex (hvertex ⟨-1, -1, -1⟩ (by simp [Hull.pyramid_vertices]))
    (hvertex ⟨1, -1, -1⟩ (by simp [Hull.pyramid_vertices])) (k := 1 / 2) (by norm_num)
  have hfoot := combination_mem hconvex (hvertex ⟨0, 1, 0⟩ (by simp [Hull.pyramid_vertices])) hmid
    (k := 17 / 25) (by norm_num)
  apply not_disjoint_interior hconvex (hspanning.interior_nonempty ⟨_, _, List.mem_cons_self, rfl⟩) hfoot
  change _ ∈ interior (Metric.closedBall (((ShapeParameters.sphere 1).transform
    ⟨⟨0, 0.6 * shortReach, -0.8 * shortReach⟩, ⟨1, 0, 0, 0⟩⟩).position).point (1 * 1))
  rw [transform_position (p := .sphere 1) rfl]
  apply mem_interior_ball (by norm_num)
  simp [Vector3.lengthSquared_real, shortReach, shortLength]
  norm_num

/-- With a little less of its radius the sphere stays clear of the pyramid. -/
theorem notFound_disjoint_shortNormal :
    Disjoint (interior (shortNormal.solid 0 clearFraction)) (interior (shortNormal.solid 1 clearFraction)) := by
  have hbodies : ∀ body, (shortNormal.bodies body).orientation.IsRotation := fun _ => isRotation_one
  have hparameters : ∀ ref, WellMade (shortNormal.shapes ref).toShapeParameters := by
    intro ref
    by_cases h : ref = 0
    · subst h
      exact wellMade_pyramid _
    · simp only [shortNormal, World.create, CollisionShape.create, if_neg h]
      exact wellMade_sphere 1
  exact (notFound_disjoint shortNormal.bodies (fun ref => (shortNormal.shapes ref).toShapeParameters) hbodies
    hparameters [] (fun _ h => absurd h List.not_mem_nil) shortNormal rfl 0 1).1 (Or.inr shortNormal_notFound)

/-! ## A hull that is too far away -/

/-- Where all correlations are beyond the first value the search gives the first vertex. -/
theorem minVertex_of_beyond {hull : Hull ℝ} {localAxis : Vector3 ℝ}
    (h : ∀ v ∈ hull.vertices, fltMax < localAxis.dotProduct v) :
    (hull.getMinMaxVerticesInAxis localAxis).1 = 0 := by
  have hbest := Hull.best_min hull localAxis
  rw [Hull.getMinMaxVerticesInAxis_eq]
  cases hbest.found with
  | inl hfound =>
    obtain ⟨⟨v, i⟩, hmem, hvalue⟩ := hfound
    have hlt := h v (Hull.mem_of_mem_zipIdx hmem).1
    have hle := hbest.le_first
    rw [hvalue] at hle
    exact absurd hlt (not_lt.mpr hle)
  | inr hfirst => exact congrArg Prod.snd hfirst.1

/-- Twice `FLT_MAX`. -/
noncomputable def farReach : ℝ := fltMax + fltMax

/-- A tetrahedron whose least coordinates are beyond `FLT_MAX`. -/
noncomputable def farMesh : Hull ℝ :=
  let corners : List (Vector3 ℝ) :=
    [⟨farReach + farReach, 0, 0⟩, ⟨farReach, fltMax, 0⟩, ⟨farReach, -fltMax, fltMax⟩, ⟨farReach, -fltMax, -fltMax⟩]
  [[0, 1, 2], [0, 2, 3], [0, 3, 1], [1, 3, 2]].foldl Hull.addFace (corners.foldl Hull.addVertex ⟨[], []⟩)

theorem farMesh_vertices : farMesh.vertices =
    [⟨farReach + farReach, 0, 0⟩, ⟨farReach, fltMax, 0⟩, ⟨farReach, -fltMax, fltMax⟩,
      ⟨farReach, -fltMax, -fltMax⟩] := rfl

noncomputable def farTetrahedron : ShapeParameters ℝ := ⟨.hull farMesh, Matrix4.scaling ⟨1, 1, 1⟩⟩

/-- The tetrahedron, and a sphere around the middle of its base. -/
noncomputable def farHull : World ℝ :=
  .create (fun body => ⟨⟨if body = 0 then 0 else ⟨farReach, 0, 0⟩, ⟨1, 0, 0, 0⟩⟩, body⟩)
    (fun ref => if ref = 0 then farTetrahedron else .sphere fltMax)

theorem fltMax_pos : (0 : ℝ) < fltMax := by
  rw [fltMax_real]
  norm_num

theorem farTetrahedron_apply (v : Vector3 ℝ) : (farTetrahedron.transform ⟨0, ⟨1, 0, 0, 0⟩⟩).apply v = v := by
  rw [transform_apply (p := farTetrahedron) rfl, rotationMatrix_one]
  ext <;> simp

/-- The support point is the farthest vertex, not the nearest. -/
theorem farTetrahedron_low : farTetrahedron.low ⟨0, ⟨1, 0, 0, 0⟩⟩ ⟨1, 0, 0⟩ = farReach + farReach := by
  have hpos := fltMax_pos
  have hreach : farReach = fltMax + fltMax := rfl
  have hcorrelation : ∀ v : Vector3 ℝ,
      ((farTetrahedron.transform ⟨0, ⟨1, 0, 0, 0⟩⟩).toMatrix3.transpose.apply ⟨1, 0, 0⟩).dotProduct v = v.x := by
    intro v
    have hworld := dotProduct_transform_apply (p := farTetrahedron) rfl ⟨0, ⟨1, 0, 0, 0⟩⟩ ⟨1, 0, 0⟩ v
    rw [farTetrahedron_apply] at hworld
    simp only [Vector3.dotProduct_real (⟨1, 0, 0⟩ : Vector3 ℝ), Vector3.zero_x, Vector3.zero_y, Vector3.zero_z]
      at hworld
    linarith
  have hfirst : (farMesh.getMinMaxVerticesInAxis
      ((farTetrahedron.transform ⟨0, ⟨1, 0, 0, 0⟩⟩).toMatrix3.transpose.apply ⟨1, 0, 0⟩)).1 = 0 := by
    apply minVertex_of_beyond
    intro v hv
    rw [hcorrelation]
    rw [farMesh_vertices] at hv
    fin_cases hv <;> simp only <;> linarith
  have hunfold : farTetrahedron.low ⟨0, ⟨1, 0, 0, 0⟩⟩ ⟨1, 0, 0⟩ =
      Vector3.dotProduct ⟨1, 0, 0⟩ ((farTetrahedron.transform ⟨0, ⟨1, 0, 0, 0⟩⟩).apply (farMesh.getVertex
        (farMesh.getMinMaxVerticesInAxis
          ((farTetrahedron.transform ⟨0, ⟨1, 0, 0, 0⟩⟩).toMatrix3.transpose.apply ⟨1, 0, 0⟩)).1)) := rfl
  have hvertex : farMesh.getVertex 0 = ⟨farReach + farReach, 0, 0⟩ := rfl
  rw [hunfold, hfirst, farTetrahedron_apply, hvertex, Vector3.dotProduct_real]
  ring

theorem farHull_notFound :
    (checkPolyhedronSphereCollision farHull.shapes (farHull.bodies 0) (farHull.bodies 1)).1 = none := by
  have hpos := fltMax_pos
  have hreach : farReach = fltMax + fltMax := rfl
  rw [checkPolyhedronSphereCollision_eq_none_iff]
  refine ⟨⟨1, 0, 0⟩, ?_, ?_⟩
  · apply mem_polyhedronSphereTested
    change _ ∈ farTetrahedron.ownAxes ⟨0, ⟨1, 0, 0, 0⟩⟩
    apply List.mem_map.mpr
    exact ⟨⟨1, 0, 0⟩, List.mem_cons_self, rotationMatrix_one _⟩
  · have hlow := farTetrahedron_low
    have hsphereLow := low_sphere fltMax ⟨⟨farReach, 0, 0⟩, ⟨1, 0, 0, 0⟩⟩ ⟨1, 0, 0⟩
    have hsphereHigh := high_sphere fltMax ⟨⟨farReach, 0, 0⟩, ⟨1, 0, 0, 0⟩⟩ ⟨1, 0, 0⟩
    simp only [Vector3.dotProduct_real, Vector3.lengthSquared_real] at hsphereLow hsphereHigh
    have hnone : checkCollisionAxis ⟨1, 0, 0⟩ ⟨0, ⟨1, 0, 0, 0⟩⟩ ⟨⟨farReach, 0, 0⟩, ⟨1, 0, 0, 0⟩⟩ farTetrahedron
        (.sphere fltMax) = none := by
      apply checkCollisionAxis_eq_none_iff.mpr
      rw [hlow, hsphereLow, hsphereHigh]
      constructor
      · intro hle
        linarith
      · intro _
        linarith
    exact hnone

theorem farHull_meet : ¬ Disjoint (interior (farHull.solid 0 1)) (interior (farHull.solid 1 1)) := by
  have hpos := fltMax_pos
  have hreach : farReach = fltMax + fltMax := rfl
  have hvolume : farMesh.HasVolume := by
    intro localAxis h
    simp only [farMesh_vertices] at h
    have hx := h ⟨farReach + farReach, 0, 0⟩ (by simp) ⟨farReach, fltMax, 0⟩ (by simp)
    have hy := h ⟨farReach, fltMax, 0⟩ (by simp) ⟨farReach, -fltMax, fltMax⟩ (by simp)
    have hz := h ⟨farReach, -fltMax, fltMax⟩ (by simp) ⟨farReach, -fltMax, -fltMax⟩ (by simp)
    simp only [Vector3.dotProduct_real] at hx hy hz
    have hz' : localAxis.z = 0 := by
      apply (mul_eq_zero.mp _).resolve_right hpos.ne'
      linarith
    have hy' : localAxis.y = 0 := by
      rw [hz'] at hy
      apply (mul_eq_zero.mp _).resolve_right hpos.ne'
      linarith
    have hx' : localAxis.x = 0 := by
      rw [hy', hz', hreach] at hx
      apply (mul_eq_zero.mp _).resolve_right hpos.ne'
      linarith
    exact Vector3.ext hx' hy' hz'
  have hspanning : Spanning (farTetrahedron.worldVertices ⟨0, ⟨1, 0, 0, 0⟩⟩) :=
    spanning_worldVertices (p := farTetrahedron) rfl ⟨one_ne_zero, one_ne_zero, one_ne_zero⟩ isRotation_one hvolume
  have hvertex : ∀ v ∈ farMesh.vertices, v.point ∈ farHull.solid 0 1 := by
    intro v hv
    apply subset_convexHull
    exact ⟨v, hv, congrArg Vector3.point (farTetrahedron_apply v)⟩
  have hconvex : Convex ℝ (farHull.solid 0 1) := convex_convexHull ℝ _
  have hmid := combination_mem hconvex (hvertex ⟨farReach, -fltMax, fltMax⟩ (by simp [farMesh_vertices]))
    (hvertex ⟨farReach, -fltMax, -fltMax⟩ (by simp [farMesh_vertices])) (k := 1 / 2) (by norm_num)
  have hbase := combination_mem hconvex (hvertex ⟨farReach, fltMax, 0⟩ (by simp [farMesh_vertices])) hmid
    (k := 1 / 2) (by norm_num)
  apply not_disjoint_interior hconvex (hspanning.interior_nonempty ⟨_, _, List.mem_cons_self, rfl⟩) hbase
  change _ ∈ interior (Metric.closedBall (((ShapeParameters.sphere fltMax).transform
    ⟨⟨farReach, 0, 0⟩, ⟨1, 0, 0, 0⟩⟩).position).point (1 * fltMax))
  rw [transform_position (p := .sphere fltMax) rfl, one_mul]
  apply mem_interior_ball hpos.le
  simp only [Vector3.lengthSquared_real, Vector3.sub_x, Vector3.sub_y, Vector3.sub_z, Vector3.add_x, Vector3.add_y,
    Vector3.add_z, Vector3.mul_x, Vector3.mul_y, Vector3.mul_z]
  ring_nf
  positivity

/-- No collision is found, and the interiors overlap: of a sphere and a pyramid with a normal
that is too short, and of a sphere and a hull that is too far away. -/
theorem notFound_overlap :
    ((checkPolyhedronSphereCollision shortNormal.shapes (shortNormal.bodies 0) (shortNormal.bodies 1)).1 = none ∧
      ¬ Disjoint (interior (shortNormal.solid 0 1)) (interior (shortNormal.solid 1 1))) ∧
    (checkPolyhedronSphereCollision farHull.shapes (farHull.bodies 0) (farHull.bodies 1)).1 = none ∧
      ¬ Disjoint (interior (farHull.solid 0 1)) (interior (farHull.solid 1 1)) :=
  ⟨⟨shortNormal_notFound, shortNormal_meet⟩, farHull_notFound, farHull_meet⟩

end Lumos.Physics.CollisionDetection
