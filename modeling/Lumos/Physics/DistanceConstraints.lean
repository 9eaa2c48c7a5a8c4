import Lumos.Maths.ExactArithmetic
import Lumos.Physics.ConstraintSolver

/-!
# What a distance constraint does to the velocities

The impulse is divided by the mass of both bodies along the axis. It has the effect that is
aimed at if both take up what they are counted with, which a static body does not.
-/
namespace Lumos.Physics.Dynamics

open Maths FloatArithmetic

variable {K : Type} [ExactArithmetic K] {n : Nat}

namespace RigidBody3D

variable (body : RigidBody3D K) (r direction : Vector3 K) (j : K)

/-- What the inertia adds to the mass a body is counted with. -/
def inertiaAlong : K := ((body.invInertia.apply (r.crossProduct direction)).crossProduct r).dotProduct direction

/-- How fast the point moves along the direction after an impulse of one. -/
def response : K :=
  if body.isStatic then 0 else body.invMass * direction.dotProduct direction + body.inertiaAlong r direction

/-- What the body is counted with, but does not take up: all there is if it is static, and
what is missing if the direction is not of unit length. -/
def withheld : K :=
  if body.isStatic then body.invMass + body.inertiaAlong r direction
  else body.invMass * (1 - direction.dotProduct direction)

/-- The body after an impulse. -/
def impelled : RigidBody3D K :=
  (body.setLinearVelocity (body.linearVelocity + direction * (j * body.invMass))).setAngularVelocity
    (body.angularVelocity + body.invInertia.apply (r.crossProduct (direction * j)))

theorem impelled_of_static (h : body.isStatic = true) : body.impelled r direction j = body := by
  simp [impelled, setLinearVelocity, setAngularVelocity, h]

theorem impelled_of_movable (h : body.isStatic = false) : body.impelled r direction j =
    { body with
      linearVelocity := body.linearVelocity + direction * (j * body.invMass)
      angularVelocity := body.angularVelocity + body.invInertia.apply (r.crossProduct (direction * j)) } := by
  simp [impelled, setLinearVelocity, setAngularVelocity, h]

/-- An impulse leaves a body where it is. -/
theorem impelled_toPose : (body.impelled r direction j).toPose = body.toPose := by
  cases h : body.isStatic with
  | true => rw [impelled_of_static body r direction j h]
  | false => rw [impelled_of_movable body r direction j h]

/-- What an impulse does to the velocity of the point it acts on. -/
theorem pointVelocity_impelled : (pointVelocity (body.impelled r direction j) r).dotProduct direction =
    (pointVelocity body r).dotProduct direction + j * body.response r direction := by
  cases h : body.isStatic with
  | true =>
    rw [impelled_of_static body r direction j h, response, h, if_pos rfl, mul_zero, add_zero]
  | false =>
    rw [impelled_of_movable body r direction j h, response, h, if_neg Bool.false_ne_true]
    simp only [pointVelocity, inertiaAlong, Vector3.crossProduct_mul, Matrix3.apply_mul, Vector3.add_crossProduct,
      Vector3.mul_crossProduct, Vector3.add_dotProduct, Vector3.mul_dotProduct]
    ring

end RigidBody3D

/-- The mass both are counted with. -/
theorem constraintMass_eq (a b : RigidBody3D K) (r1 r2 direction : Vector3 K) :
    constraintMass a b r1 r2 direction = a.response r1 direction + b.response r2 direction +
      (a.withheld r1 direction + b.withheld r2 direction) := by
  have hcounted : ∀ (body : RigidBody3D K) (r : Vector3 K), body.response r direction + body.withheld r direction =
      body.invMass + body.inertiaAlong r direction := by
    intro body r
    unfold RigidBody3D.response RigidBody3D.withheld
    split <;> ring
  have hmass : constraintMass a b r1 r2 direction =
      a.invMass + b.invMass + (a.inertiaAlong r1 direction + b.inertiaAlong r2 direction) := by
    rw [constraintMass, Vector3.dotProduct_comm, Vector3.add_dotProduct]
    rfl
  rw [hmass]
  linear_combination -hcounted a r1 - hcounted b r2

section Pairs

variable (bodies : Fin n → RigidBody3D K) {a b : Fin n} (r1 r2 direction : Vector3 K) (j : K)

theorem applyImpulsePair_left (hdistinct : a ≠ b) :
    applyImpulsePair bodies a b r1 r2 direction j a = (bodies a).impelled r1 direction j := by
  cases h : (bodies a).isStatic <;>
    simp [applyImpulsePair, RigidBody3D.impelled, RigidBody3D.setLinearVelocity, RigidBody3D.setAngularVelocity, h,
      hdistinct, hdistinct.symm]

theorem applyImpulsePair_right (hdistinct : a ≠ b) :
    applyImpulsePair bodies a b r1 r2 direction j b = (bodies b).impelled r2 direction (-j) := by
  have hlinear : (bodies b).linearVelocity + direction * (-j * (bodies b).invMass) =
      (bodies b).linearVelocity - direction * (j * (bodies b).invMass) := by
    rw [Vector3.sub_mul, neg_mul]
  have hangular : (bodies b).angularVelocity + (bodies b).invInertia.apply (r2.crossProduct (direction * -j)) =
      (bodies b).angularVelocity - (bodies b).invInertia.apply (r2.crossProduct (direction * j)) := by
    rw [Vector3.crossProduct_mul, Vector3.crossProduct_mul, Matrix3.apply_mul, Matrix3.apply_mul, Vector3.sub_mul]
  rw [RigidBody3D.impelled, hlinear, hangular]
  cases h : (bodies b).isStatic <;>
    simp [applyImpulsePair, RigidBody3D.setLinearVelocity, RigidBody3D.setAngularVelocity, h, hdistinct.symm]

theorem applyImpulsePair_other {k : Fin n} (ha : k ≠ a) (hb : k ≠ b) :
    applyImpulsePair bodies a b r1 r2 direction j k = bodies k := by
  simp [applyImpulsePair, ha, hb]

end Pairs

/-! ## The constraint -/

namespace DistanceConstraint

variable (deltaTime : K) (bodies : Fin n → RigidBody3D K) (c : DistanceConstraint n K)

/-- The points and the axis in the poses the bodies have. -/
def jointIn : Joint K := joint (bodies c.obj1) (bodies c.obj2) c.localOnA c.localOnB

def bias : K := baumgarte deltaTime ((c.jointIn bodies).ab.length - c.distance)

/-- The relative velocity of the points along the axis is what the constraint aims at. -/
def AtBias : Prop := (c.jointIn bodies).dv.dotProduct (c.jointIn bodies).abn = -c.bias deltaTime bodies

/-- What the bodies are counted with and do not take up. -/
def withheld : K :=
  (bodies c.obj1).withheld (c.jointIn bodies).r1 (c.jointIn bodies).abn +
    (bodies c.obj2).withheld (c.jointIn bodies).r2 (c.jointIn bodies).abn

/-- Static bodies move no more than before. -/
def KeepsStatic (bodies' : Fin n → RigidBody3D K) : Prop :=
  ∀ k, (bodies k).isStatic = true → (bodies' k).linearVelocity = (bodies k).linearVelocity ∧
    (bodies' k).angularVelocity = (bodies k).angularVelocity

variable {deltaTime bodies c}

theorem keepsStatic_applyImpulse (hdistinct : c.obj1 ≠ c.obj2) :
    KeepsStatic bodies (c.applyImpulse deltaTime bodies) := by
  intro k hstatic
  unfold applyImpulse
  split
  · exact ⟨rfl, rfl⟩
  · by_cases h1 : k = c.obj1
    · subst h1
      rw [applyImpulsePair_left bodies _ _ _ _ hdistinct, RigidBody3D.impelled_of_static _ _ _ _ hstatic]
      exact ⟨rfl, rfl⟩
    · by_cases h2 : k = c.obj2
      · subst h2
        rw [applyImpulsePair_right bodies _ _ _ _ hdistinct, RigidBody3D.impelled_of_static _ _ _ _ hstatic]
        exact ⟨rfl, rfl⟩
      · rw [applyImpulsePair_other bodies _ _ _ _ h1 h2]
        exact ⟨rfl, rfl⟩

/-- The axis and the bias depend on where the bodies are, not on how they move. -/
theorem atBias_of_toPose {bodies' : Fin n → RigidBody3D K}
    (h1 : (bodies' c.obj1).toPose = (bodies c.obj1).toPose) (h2 : (bodies' c.obj2).toPose = (bodies c.obj2).toPose) :
    c.AtBias deltaTime bodies' ↔
      (pointVelocity (bodies' c.obj1) (c.jointIn bodies).r1 -
        pointVelocity (bodies' c.obj2) (c.jointIn bodies).r2).dotProduct (c.jointIn bodies).abn =
      -c.bias deltaTime bodies := by
  simp only [AtBias, bias, jointIn, joint, h1, h2]

/-- A constraint that is at its bias does nothing more. Else it gets there if both bodies take up
all they are counted with. -/
theorem applyImpulse_atBias_iff (deltaTime : K) (bodies : Fin n → RigidBody3D K) (c : DistanceConstraint n K)
    (hdistinct : c.obj1 ≠ c.obj2) (hmass : (c.jointIn bodies).constraintMass ≠ 0) :
    (c.AtBias deltaTime (c.applyImpulse deltaTime bodies) ∧
        KeepsStatic bodies (c.applyImpulse deltaTime bodies)) ↔
      c.AtBias deltaTime bodies ∨
        immovable (bodies c.obj1) (bodies c.obj2) = false ∧ c.withheld bodies = 0 := by
  rw [and_iff_left (keepsStatic_applyImpulse hdistinct)]
  cases himmovable : immovable (bodies c.obj1) (bodies c.obj2) with
  | true => simp [applyImpulse, himmovable]
  | false =>
    obtain ⟨jn, hjn⟩ : ∃ jn, jn = -((c.jointIn bodies).dv.dotProduct (c.jointIn bodies).abn +
      c.bias deltaTime bodies) / (c.jointIn bodies).constraintMass := ⟨_, rfl⟩
    have happly : c.applyImpulse deltaTime bodies = applyImpulsePair bodies c.obj1 c.obj2 (c.jointIn bodies).r1
        (c.jointIn bodies).r2 (c.jointIn bodies).abn jn := by
      rw [hjn, applyImpulse, himmovable]
      rfl
    have hleft := applyImpulsePair_left bodies (c.jointIn bodies).r1 (c.jointIn bodies).r2 (c.jointIn bodies).abn jn
      hdistinct
    have hright := applyImpulsePair_right bodies (c.jointIn bodies).r1 (c.jointIn bodies).r2 (c.jointIn bodies).abn jn
      hdistinct
    have hcounted := constraintMass_eq (bodies c.obj1) (bodies c.obj2) (c.jointIn bodies).r1 (c.jointIn bodies).r2
      (c.jointIn bodies).abn
    have hdv : (c.jointIn bodies).dv.dotProduct (c.jointIn bodies).abn =
        (pointVelocity (bodies c.obj1) (c.jointIn bodies).r1).dotProduct (c.jointIn bodies).abn -
          (pointVelocity (bodies c.obj2) (c.jointIn bodies).r2).dotProduct (c.jointIn bodies).abn :=
      Vector3.sub_dotProduct _ _ _
    rw [happly, atBias_of_toPose (by rw [hleft, RigidBody3D.impelled_toPose])
      (by rw [hright, RigidBody3D.impelled_toPose]), hleft, hright, Vector3.sub_dotProduct,
      RigidBody3D.pointVelocity_impelled, RigidBody3D.pointVelocity_impelled]
    have hjn' : jn * (c.jointIn bodies).constraintMass =
        -((c.jointIn bodies).dv.dotProduct (c.jointIn bodies).abn + c.bias deltaTime bodies) := by
      rw [hjn, div_mul_cancel₀ _ hmass]
    have hmass' : (c.jointIn bodies).constraintMass =
        (bodies c.obj1).response (c.jointIn bodies).r1 (c.jointIn bodies).abn +
          (bodies c.obj2).response (c.jointIn bodies).r2 (c.jointIn bodies).abn + c.withheld bodies := hcounted
    -- what is missing afterwards is what the bodies have not taken up
    have hmissing : ∀ v0 v1 : K, (c.jointIn bodies).dv.dotProduct (c.jointIn bodies).abn = v0 - v1 →
        (v0 + jn * (bodies c.obj1).response (c.jointIn bodies).r1 (c.jointIn bodies).abn -
          (v1 + -jn * (bodies c.obj2).response (c.jointIn bodies).r2 (c.jointIn bodies).abn) =
            -c.bias deltaTime bodies ↔ jn * c.withheld bodies = 0) := by
      intro v0 v1 h
      rw [hmass'] at hjn'
      constructor
      · intro hafter
        linear_combination hjn' - h - hafter
      · intro hzero
        linear_combination hjn' - h - hzero
    have hat : jn = 0 ↔ c.AtBias deltaTime bodies := by
      rw [← mul_left_inj' hmass, zero_mul, hjn', neg_eq_zero, add_eq_zero_iff_eq_neg]
      rfl
    rw [hmissing _ _ hdv, mul_eq_zero, hat]
    simp

/-- A body of mass one at a place on the axis. -/
def blockAt (position velocity : ℚ) (isStatic : Bool) : RigidBody3D ℚ where
  position := ⟨position, 0, 0⟩
  orientation := ⟨1, 0, 0, 0⟩
  linearVelocity := ⟨velocity, 0, 0⟩
  force := 0
  invMass := 1
  angularVelocity := 0
  torque := 0
  invInertia := .diagonal 0 0 0
  collisionShape := none
  isStatic := isStatic
  isAtRest := false
  elasticity := 1
  friction := 1
  isTrigger := false
  restVelocityThresholdSquared := 0
  averageSummedVelocity := 0
  wsTransform := ⟨.scaling ⟨1, 1, 1⟩, true⟩
  localBoundingBox := .cleared
  wsAabb := ⟨.cleared, true⟩

/-- The second block moves away from the first. -/
def blocks (isStatic : Bool) : Fin 2 → RigidBody3D ℚ
  | 0 => blockAt 0 0 isStatic
  | 1 => blockAt 1 1 false

def rod {n : Nat} (obj1 obj2 : Fin n) : DistanceConstraint n ℚ := ⟨obj1, obj2, 1, 0, 0⟩

theorem rod_applyImpulse_atBias : (rod 0 1).AtBias 1 ((rod 0 1).applyImpulse 1 (blocks false)) ∧
    KeepsStatic (blocks false) ((rod 0 1).applyImpulse 1 (blocks false)) :=
  (applyImpulse_atBias_iff 1 (blocks false) (rod 0 1) (by decide) (by decide +kernel)).mpr
    (.inr (by decide +kernel))

/-- At a static block the other one loses half of its velocity. -/
theorem rod_static_not_atBias : ¬ (rod 0 1).AtBias 1 ((rod 0 1).applyImpulse 1 (blocks true)) := by
  unfold AtBias
  decide +kernel

end DistanceConstraint

end Lumos.Physics.Dynamics
