import Lumos.Library.SeparatingAxis
import Lumos.Maths.ExactArithmetic
import Lumos.Physics.FirstChecks

/-!
# The penetration and the normal that are found

On each axis the first body is taken to be moved out of the second one at the end where its
projection begins. The other end may be nearer where one projection is within the other.
-/
namespace Lumos.Physics.CollisionDetection

open Maths FloatArithmetic WayOut
open scoped RealInnerProductSpace

/-! ## The best of the axes -/

section Best

variable {K : Type} [FloatArithmetic K] {better : K → K → Bool} {obj1 obj2 : Pose K} {p1 p2 : ShapeParameters K}

/-- The test of the axes ends with the data it starts from or with those of an axis. -/
theorem testAxes_mem {best found : CollisionData K} {axes : List (Vector3 K)}
    (h : testAxes better obj1 obj2 p1 p2 best axes = some found) :
    found = best ∨ ∃ axis ∈ axes, checkCollisionAxis axis obj1 obj2 p1 p2 = some found := by
  induction axes generalizing best with
  | nil => exact .inl (Option.some.inj h).symm
  | cons axis axes ih =>
    unfold testAxes at h
    cases hcheck : checkCollisionAxis axis obj1 obj2 p1 p2 with
    | none =>
      rw [hcheck] at h
      cases h
    | some cur =>
      rw [hcheck] at h
      obtain hfirst | ⟨other, hother, hfound⟩ := ih h
      · split at hfirst
        · exact .inr ⟨axis, List.mem_cons_self, by rw [hcheck, hfirst]⟩
        · exact .inl hfirst
      · exact .inr ⟨other, List.mem_cons_of_mem _ hother, hfound⟩

end Best

section Depths

variable {better : ℝ → ℝ → Bool} {obj1 obj2 : Pose ℝ} {p1 p2 : ShapeParameters ℝ}

/-- No axis has a penetration beyond that of the end. -/
theorem testAxes_le (hbetter : ∀ a b, better a b = true → b ≤ a) (hworse : ∀ a b, better a b = false → a ≤ b)
    {best found : CollisionData ℝ} {axes : List (Vector3 ℝ)}
    (h : testAxes better obj1 obj2 p1 p2 best axes = some found) :
    best.penetration ≤ found.penetration ∧
      ∀ axis ∈ axes, ∃ cur, checkCollisionAxis axis obj1 obj2 p1 p2 = some cur ∧
        cur.penetration ≤ found.penetration := by
  induction axes generalizing best with
  | nil =>
    cases h
    exact ⟨le_refl _, fun axis haxis => absurd haxis List.not_mem_nil⟩
  | cons axis axes ih =>
    unfold testAxes at h
    cases hcheck : checkCollisionAxis axis obj1 obj2 p1 p2 with
    | none =>
      rw [hcheck] at h
      cases h
    | some cur =>
      rw [hcheck] at h
      obtain ⟨hkept, hrest⟩ := ih h
      have hboth : best.penetration ≤ found.penetration ∧ cur.penetration ≤ found.penetration := by
        split at hkept
        · next hcur => exact ⟨(hbetter _ _ hcur).trans hkept, hkept⟩
        · next hcur => exact ⟨hkept, (hworse _ _ (Bool.not_eq_true _ ▸ hcur)).trans hkept⟩
      constructor
      · exact hboth.1
      · intro other hother
        obtain rfl | hother := List.mem_cons.mp hother
        · exact ⟨cur, hcheck, hboth.2⟩
        · exact hrest other hother

/-- From a penetration that an axis gets past, the test ends with the data of an axis. -/
theorem testAxes_best (hbetter : ∀ a b, better a b = true → b ≤ a) (hworse : ∀ a b, better a b = false → a ≤ b)
    {found : CollisionData ℝ} {axes : List (Vector3 ℝ)}
    (h : testAxes better obj1 obj2 p1 p2 .worst axes = some found)
    (hreach : ∃ axis ∈ axes, ∀ cur, checkCollisionAxis axis obj1 obj2 p1 p2 = some cur → -fltMax < cur.penetration) :
    (∃ axis ∈ axes, checkCollisionAxis axis obj1 obj2 p1 p2 = some found) ∧
      ∀ axis ∈ axes, ∃ cur, checkCollisionAxis axis obj1 obj2 p1 p2 = some cur ∧
        cur.penetration ≤ found.penetration := by
  have hle := (testAxes_le hbetter hworse h).2
  refine ⟨(testAxes_mem h).resolve_left ?_, hle⟩
  rintro rfl
  obtain ⟨axis, haxis, hpast⟩ := hreach
  obtain ⟨cur, hcur, hworst⟩ := hle axis haxis
  exact absurd (hpast cur hcur) (not_lt.mpr hworst)

end Depths

/-! ## Ways out -/

/-- The body moved. -/
def Pose.shifted {K : Type} [FloatArithmetic K] (obj : Pose K) (v : Vector3 K) : Pose K :=
  { obj with position := obj.position + v }

section Ways

variable (obj1 obj2 : Pose ℝ) (p1 p2 : ShapeParameters ℝ)

/-- With the first body moved like this the projections do not overlap beyond contact. -/
def Cleared (v axis : Vector3 ℝ) : Prop :=
  p1.high (obj1.shifted v) axis ≤ p2.low obj2 axis ∨ p2.high obj2 axis ≤ p1.low (obj1.shifted v) axis

/-- How far the first body is to be moved along an axis until the projections only touch. -/
noncomputable def forwardDepth (axis : Vector3 ℝ) : ℝ := p2.high obj2 axis - p1.low obj1 axis

noncomputable def backwardDepth (axis : Vector3 ℝ) : ℝ := p1.high obj1 axis - p2.low obj2 axis

/-- The one of the two that `CheckCollisionAxis` goes by. -/
noncomputable def takenDepth (axis : Vector3 ℝ) : ℝ :=
  if p1.low obj1 axis ≤ p2.low obj2 axis then backwardDepth obj1 obj2 p1 p2 axis
  else forwardDepth obj1 obj2 p1 p2 axis

noncomputable def overlapOn (axis : Vector3 ℝ) : Overlap Space :=
  ⟨axis.point, forwardDepth obj1 obj2 p1 p2 axis, backwardDepth obj1 obj2 p1 p2 axis⟩

variable {obj1 obj2 p1 p2} {axis : Vector3 ℝ}

/-- Moving a body moves its projection. -/
theorem shifted_ends {p : ShapeParameters ℝ} (hp : WellMade p) (obj : Pose ℝ) (v axis : Vector3 ℝ) :
    p.low (obj.shifted v) axis = p.low obj axis + axis.dotProduct v ∧
      p.high (obj.shifted v) axis = p.high obj axis + axis.dotProduct v := by
  obtain ⟨s, hscaled⟩ := hp.scaled
  have hpoint : ∀ w, (p.transform (obj.shifted v)).apply w = (p.transform obj).apply w + v := by
    intro w
    rw [transform_apply hscaled, transform_apply hscaled]
    ext <;> simp [Pose.shifted, add_assoc]
  have hlocal : (p.transform (obj.shifted v)).toMatrix3.transpose.apply axis =
      (p.transform obj).toMatrix3.transpose.apply axis := by
    rw [localAxis_eq hscaled, localAxis_eq hscaled]
    rfl
  have hposition : (p.transform (obj.shifted v)).position = (p.transform obj).position + v := by
    rw [transform_position hscaled, transform_position hscaled]
    rfl
  have hadd : ∀ a b : Vector3 ℝ, axis.dotProduct (a + b) = axis.dotProduct a + axis.dotProduct b := by
    intro a b
    simp only [Vector3.dotProduct_real, Vector3.add_x, Vector3.add_y, Vector3.add_z]
    ring
  unfold ShapeParameters.low ShapeParameters.high ShapeParameters.getMinMaxVertexOnAxis
  cases p.data with
  | cuboid | pyramid normals | hull mesh =>
    simp only [hlocal, hpoint, hadd, and_self]
  | sphere radius | capsule radius height =>
    simp only [hposition, dotProduct_sub_mul, hadd]
    constructor <;> ring

/-- To be cleared is to be moved out of the overlap. -/
theorem cleared_iff (hp : WellMade p1) (v : Vector3 ℝ) :
    Cleared obj1 obj2 p1 p2 v axis ↔ (overlapOn obj1 obj2 p1 p2 axis).Clears v.point := by
  obtain ⟨hlow, hhigh⟩ := shifted_ends hp obj1 v axis
  rw [Cleared, hlow, hhigh, Overlap.Clears, overlapOn, Vector3.inner_point, forwardDepth, backwardDepth]
  constructor
  · rintro (h | h)
    · exact .inr (by linarith)
    · exact .inl (by linarith)
  · rintro (h | h)
    · exact .inr (by linarith)
    · exact .inl (by linarith)

/-- What an axis finds: the data of a way out, and an overlap. -/
structure FoundOn (obj1 obj2 : Pose ℝ) (p1 p2 : ShapeParameters ℝ) (axis : Vector3 ℝ) (cur : CollisionData ℝ) :
    Prop where
  penetration : cur.penetration = -takenDepth obj1 obj2 p1 p2 axis
  move : ∃ t, (t = forwardDepth obj1 obj2 p1 p2 axis ∨ t = -backwardDepth obj1 obj2 p1 p2 axis) ∧
    |t| = takenDepth obj1 obj2 p1 p2 axis ∧ cur.normal * cur.penetration = axis * t
  forwards : 0 ≤ forwardDepth obj1 obj2 p1 p2 axis
  backwards : 0 ≤ backwardDepth obj1 obj2 p1 p2 axis

theorem foundOn_of_checkCollisionAxis (h1 : p1.low obj1 axis ≤ p1.high obj1 axis)
    (h2 : p2.low obj2 axis ≤ p2.high obj2 axis) {cur : CollisionData ℝ}
    (h : checkCollisionAxis axis obj1 obj2 p1 p2 = some cur) : FoundOn obj1 obj2 p1 p2 axis cur := by
  rw [checkCollisionAxis_eq] at h
  simp only [Bool.and_eq_true, le_real, lt_real] at h
  split at h
  · next hcase =>
    cases h
    have hforwards : 0 ≤ forwardDepth obj1 obj2 p1 p2 axis := by
      unfold forwardDepth
      linarith [hcase.1]
    have hbackwards : 0 ≤ backwardDepth obj1 obj2 p1 p2 axis := sub_nonneg.mpr hcase.2
    have htaken : takenDepth obj1 obj2 p1 p2 axis = backwardDepth obj1 obj2 p1 p2 axis := if_pos hcase.1
    refine ⟨?_, ⟨-backwardDepth obj1 obj2 p1 p2 axis, .inr rfl, ?_, ?_⟩, hforwards, hbackwards⟩
    · rw [htaken, backwardDepth, neg_sub]
    · rw [htaken, abs_neg, abs_of_nonneg hbackwards]
    · rw [backwardDepth, neg_sub]
  · split at h
    · next hnot hcase =>
      cases h
      have hforwards : 0 ≤ forwardDepth obj1 obj2 p1 p2 axis := sub_nonneg.mpr hcase.2.le
      have hbackwards : 0 ≤ backwardDepth obj1 obj2 p1 p2 axis := by
        unfold backwardDepth
        linarith [hcase.1]
      have htaken : takenDepth obj1 obj2 p1 p2 axis = forwardDepth obj1 obj2 p1 p2 axis := by
        refine if_neg fun hle => hnot ⟨hle, ?_⟩
        exact hcase.1.trans h1
      refine ⟨?_, ⟨forwardDepth obj1 obj2 p1 p2 axis, .inl rfl, ?_, ?_⟩, hforwards, hbackwards⟩
      · rw [htaken, forwardDepth, neg_sub]
      · rw [htaken, abs_of_nonneg hforwards]
      · ext <;> simp [forwardDepth] <;> ring
    · cases h

theorem fits_overlapOn (haxis : axis = 0 ∨ axis.lengthSquared = 1) {cur : CollisionData ℝ}
    (h : FoundOn obj1 obj2 p1 p2 axis cur) : (overlapOn obj1 obj2 p1 p2 axis).Fits where
  axis := by
    obtain rfl | hunit := haxis
    · have hzero : ∀ v : Vector3 ℝ, (0 : Vector3 ℝ).dotProduct v = 0 := by
        intro v
        simp [Vector3.dotProduct_real]
      right
      simp [overlapOn, forwardDepth, backwardDepth, ShapeParameters.low, ShapeParameters.high, hzero]
    · left
      rw [← Vector3.norm_point_sq] at hunit
      exact (pow_eq_one_iff_of_nonneg (norm_nonneg _) two_ne_zero).mp hunit
  forwards := h.forwards
  backwards := h.backwards

/-- The move found on an axis is as long as the depth taken there. -/
theorem norm_move (haxis : axis = 0 ∨ axis.lengthSquared = 1) {cur : CollisionData ℝ}
    (h : FoundOn obj1 obj2 p1 p2 axis cur) :
    (overlapOn obj1 obj2 p1 p2 axis).Clears (cur.normal * cur.penetration).point ∧
      ‖(cur.normal * cur.penetration).point‖ = takenDepth obj1 obj2 p1 p2 axis := by
  have hfits := fits_overlapOn haxis h
  obtain ⟨t, ht, habs, hmove⟩ := h.move
  rw [hmove, Vector3.point_mul, ← habs]
  refine ⟨hfits.clears_smul_axis ht, ?_⟩
  rw [norm_smul, Real.norm_eq_abs]
  obtain hunit | ⟨-, hforwards, hbackwards⟩ := hfits.axis
  · have hnorm : ‖axis.point‖ = 1 := hunit
    rw [hnorm, mul_one]
  · have hzero : t = 0 := by
      obtain rfl | rfl := ht
      · exact hforwards
      · exact neg_eq_zero.mpr hbackwards
    rw [hzero, abs_zero, zero_mul]

end Ways

/-! ## Checks -/

section Checks

variable (shapes : Shapes ℝ) (obj1 obj2 : RigidBody3D ℝ)

/-- `Cleared`, of bodies. -/
def ClearedOn (v axis : Vector3 ℝ) : Prop :=
  Cleared obj1.toPose obj2.toPose (shapes obj1.collisionShape).toShapeParameters
    (shapes obj2.collisionShape).toShapeParameters v axis

/-- Moving the first body by the penetration along the normal ends the overlap on one of the
axes that are tested, and no shorter move along one of them does. -/
structure LeastWayOut (found : CollisionData ℝ) : Prop where
  clears : ∃ axis ∈ testedAxes shapes obj1 obj2, ClearedOn shapes obj1 obj2 (found.normal * found.penetration) axis
  least : ∀ along ∈ testedAxes shapes obj1 obj2, ∀ t : ℝ,
    (∃ axis ∈ testedAxes shapes obj1 obj2, ClearedOn shapes obj1 obj2 (along * t) axis) →
      (found.normal * found.penetration).lengthSquared ≤ (along * t).lengthSquared

/-- The depths of the bodies on an axis. -/
noncomputable def depthTaken (axis : Vector3 ℝ) : ℝ :=
  takenDepth obj1.toPose obj2.toPose (shapes obj1.collisionShape).toShapeParameters
    (shapes obj2.collisionShape).toShapeParameters axis

noncomputable def depthForwards (axis : Vector3 ℝ) : ℝ :=
  forwardDepth obj1.toPose obj2.toPose (shapes obj1.collisionShape).toShapeParameters
    (shapes obj2.collisionShape).toShapeParameters axis

noncomputable def depthBackwards (axis : Vector3 ℝ) : ℝ :=
  backwardDepth obj1.toPose obj2.toPose (shapes obj1.collisionShape).toShapeParameters
    (shapes obj2.collisionShape).toShapeParameters axis

/-- The depth taken on some axis is not beyond any depth on any axis, in either direction. -/
def TakesLeast : Prop :=
  ∃ axis ∈ testedAxes shapes obj1 obj2, ∀ other ∈ testedAxes shapes obj1 obj2,
    depthTaken shapes obj1 obj2 axis ≤ depthForwards shapes obj1 obj2 other ∧
      depthTaken shapes obj1 obj2 axis ≤ depthBackwards shapes obj1 obj2 other

/-- The overlaps on the axes that are tested. -/
def overlaps : Set (Overlap Space) :=
  {o | ∃ axis ∈ testedAxes shapes obj1 obj2, overlapOn obj1.toPose obj2.toPose
    (shapes obj1.collisionShape).toShapeParameters (shapes obj2.collisionShape).toShapeParameters axis = o}

variable {shapes obj1 obj2}

theorem lengthSquared_le_iff (v w : Vector3 ℝ) : v.lengthSquared ≤ w.lengthSquared ↔ ‖v.point‖ ≤ ‖w.point‖ := by
  rw [← Vector3.norm_point_sq, ← Vector3.norm_point_sq, sq_le_sq₀ (norm_nonneg _) (norm_nonneg _)]

/-- The least move along an axis, by the depths. -/
theorem least_iff (h1 : WellMade (shapes obj1.collisionShape).toShapeParameters)
    (hfits : ∀ o ∈ overlaps shapes obj1 obj2, o.Fits) (move : Vector3 ℝ) :
    (∀ along ∈ testedAxes shapes obj1 obj2, ∀ t : ℝ,
      (∃ axis ∈ testedAxes shapes obj1 obj2, ClearedOn shapes obj1 obj2 (along * t) axis) →
        move.lengthSquared ≤ (along * t).lengthSquared) ↔
      ∀ axis ∈ testedAxes shapes obj1 obj2, ‖move.point‖ ≤ depthForwards shapes obj1 obj2 axis ∧
        ‖move.point‖ ≤ depthBackwards shapes obj1 obj2 axis := by
  have hshortest := Overlap.shortest_iff hfits ‖move.point‖
  constructor
  · intro hleast axis haxis
    refine hshortest.mp ?_ _ ⟨axis, haxis, rfl⟩
    rintro _ ⟨along, halong, rfl⟩ t ⟨_, ⟨other, hother, rfl⟩, hclears⟩
    have hmove := (lengthSquared_le_iff _ _).mp (hleast along halong t ⟨other, hother, (cleared_iff h1 _).mpr (by
      rw [Vector3.point_mul]
      exact hclears)⟩)
    rw [Vector3.point_mul] at hmove
    exact hmove
  · rintro hall along halong t ⟨other, hother, hcleared⟩
    rw [lengthSquared_le_iff, Vector3.point_mul]
    have hclears := (cleared_iff h1 _).mp hcleared
    rw [Vector3.point_mul] at hclears
    apply hshortest.mpr _ _ ⟨along, halong, rfl⟩ t ⟨_, ⟨other, hother, rfl⟩, hclears⟩
    rintro _ ⟨axis, haxis, rfl⟩
    exact hall axis haxis

/-- A check finds the data of an axis that it tests, and tests no axis with a penetration beyond
that. -/
theorem exists_found {found : CollisionData ℝ} {shapes' : Shapes ℝ}
    (h : checkCollision shapes obj1 obj2 = some (some found, shapes'))
    (hreach : ∃ axis ∈ testedAxes shapes obj1 obj2, ∀ cur,
      checkCollisionAxis axis obj1.toPose obj2.toPose (shapes obj1.collisionShape).toShapeParameters
        (shapes obj2.collisionShape).toShapeParameters = some cur → -fltMax < cur.penetration) :
    (∃ axis ∈ testedAxes shapes obj1 obj2,
      checkCollisionAxis axis obj1.toPose obj2.toPose (shapes obj1.collisionShape).toShapeParameters
        (shapes obj2.collisionShape).toShapeParameters = some found) ∧
    ∀ axis ∈ testedAxes shapes obj1 obj2, ∃ cur,
      checkCollisionAxis axis obj1.toPose obj2.toPose (shapes obj1.collisionShape).toShapeParameters
        (shapes obj2.collisionShape).toShapeParameters = some cur ∧ cur.penetration ≤ found.penetration := by
  unfold checkCollision at h
  unfold testedAxes at hreach ⊢
  cases hfunction : checkFunction shapes obj1 obj2 with
  | none =>
    rw [hfunction] at h
    cases h
  | some function =>
    rw [hfunction] at h hreach
    cases function with
    | invalid => cases h
    | sphere =>
      have hcheck := (Prod.mk.inj (Option.some.inj h)).1
      refine ⟨⟨_, List.mem_singleton_self _, hcheck⟩, fun axis haxis => ⟨found, ?_, le_refl _⟩⟩
      rw [List.mem_singleton.mp haxis]
      exact hcheck
    | polyhedron =>
      have hcheck := congrArg Prod.fst (Option.some.inj h)
      rw [checkPolyhedronCollision_fst] at hcheck
      apply testAxes_best _ _ hcheck hreach
      · exact fun a b hle => (le_real b a).mp hle
      · intro a b hle
        exact ((le_eq_false_real b a).mp hle).le
    | polyhedronSphere =>
      have hcheck := congrArg Prod.fst (Option.some.inj h)
      rw [checkPolyhedronSphereCollision_fst] at hcheck
      apply testAxes_best _ _ hcheck hreach
      · exact fun a b hlt => ((lt_real b a).mp hlt).le
      · exact fun a b hlt => (lt_eq_false_real b a).mp hlt

end Checks

/-! ## Two balls -/

/-- Balls of these radii at the origin and one away from it. -/
noncomputable def balls (r1 r2 : ℝ) : World ℝ :=
  .create (fun body => ⟨⟨if body = 0 then 0 else ⟨1, 0, 0⟩, ⟨1, 0, 0, 0⟩⟩, body⟩)
    (fun ref => if ref = 0 then .sphere r1 else .sphere r2)

section Balls

variable {r1 r2 : ℝ}

variable (r1 r2) in
theorem balls_axis : (((balls r1 r2).bodies 1).position - ((balls r1 r2).bodies 0).position).normalize =
    (⟨1, 0, 0⟩ : Vector3 ℝ) := by
  have hsub : ((balls r1 r2).bodies 1).position - ((balls r1 r2).bodies 0).position = (⟨1, 0, 0⟩ : Vector3 ℝ) := by
    ext <;> simp [balls, World.create]
  rw [hsub]
  apply Vector3.normalize_of_near
  simp [Vector3.lengthSquared_real]

theorem checkFunction_balls :
    checkFunction (balls r1 r2).shapes ((balls r1 r2).bodies 0) ((balls r1 r2).bodies 1) = some .sphere := by
  have htype1 : ((balls r1 r2).shapes ((balls r1 r2).bodies 0).collisionShape).data.type = 2 := rfl
  have htype2 : ((balls r1 r2).shapes ((balls r1 r2).bodies 1).collisionShape).data.type = 2 := rfl
  rw [checkFunction, htype1, htype2]
  rfl

theorem testedAxes_balls : testedAxes (balls r1 r2).shapes ((balls r1 r2).bodies 0) ((balls r1 r2).bodies 1) =
    [⟨1, 0, 0⟩] := by
  rw [testedAxes, checkFunction_balls]
  exact congrArg (fun axis => [axis]) (balls_axis r1 r2)

variable (r1 r2) in
theorem ends_balls :
    ((ShapeParameters.sphere r1).low ((balls r1 r2).bodies 0).toPose ⟨1, 0, 0⟩ = -r1 ∧
      (ShapeParameters.sphere r1).high ((balls r1 r2).bodies 0).toPose ⟨1, 0, 0⟩ = r1) ∧
    (ShapeParameters.sphere r2).low ((balls r1 r2).bodies 1).toPose ⟨1, 0, 0⟩ = 1 - r2 ∧
      (ShapeParameters.sphere r2).high ((balls r1 r2).bodies 1).toPose ⟨1, 0, 0⟩ = 1 + r2 := by
  rw [low_sphere, high_sphere, low_sphere, high_sphere]
  simp [balls, World.create, Vector3.dotProduct_real, Vector3.lengthSquared_real]

variable (r1 r2) in
theorem checkCollision_balls :
    checkCollision (balls r1 r2).shapes ((balls r1 r2).bodies 0) ((balls r1 r2).bodies 1) =
      some (checkCollisionAxis ⟨1, 0, 0⟩ ((balls r1 r2).bodies 0).toPose ((balls r1 r2).bodies 1).toPose
        (.sphere r1) (.sphere r2), (balls r1 r2).shapes) := by
  rw [checkCollision, checkFunction_balls, ← balls_axis r1 r2]
  rfl

end Balls

end Lumos.Physics.CollisionDetection
