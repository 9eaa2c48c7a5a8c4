import Lumos.Library.Caches
import Lumos.Maths.FloatGeometry
import Lumos.Physics.CollisionShape

/-!
# `RigidBody3D`

The state of a body with what is cached of it, its setters, and what an update of the
physics engine does to it.
-/
namespace Lumos.Physics.Dynamics

open Maths FloatArithmetic FloatLiterals LazyCache CollisionDetection

/-! ## Shapes -/

section Shapes

variable {K : Type} [FloatLiterals K]

structure BodyShape (K : Type) extends ShapeParameters K where
  halfDimensions : Vector3 K

namespace BodyShape

/-- Of a solid box. -/
def boxInverseInertia (halfDimensions : Vector3 K) (invMass : K) : Matrix3 K :=
  let dims := halfDimensions + halfDimensions
  let dimsSq := dims.scaled dims
  .diagonal (literal 12 * invMass * 1 / (dimsSq.y + dimsSq.z)) (literal 12 * invMass * 1 / (dimsSq.x + dimsSq.z))
    (literal 12 * invMass * 1 / (dimsSq.x + dimsSq.y))

def buildInverseInertia (shape : BodyShape K) (invMass : K) : Matrix3 K :=
  match shape.data with
  | .cuboid | .hull _ => boxInverseInertia shape.halfDimensions invMass
  | .sphere radius =>
    let i := literal (5 / 2) * invMass / (radius * radius)
    .diagonal i i i
  | .pyramid _ =>
    let scaleSq := shape.halfDimensions.scaled shape.halfDimensions
    .diagonal (invMass / (literal (1 / 5) * scaleSq.x + literal (3 / 20) * scaleSq.y))
      (invMass / (literal (1 / 5) * scaleSq.z + literal (3 / 20) * scaleSq.y))
      (invMass / (literal (1 / 5) * scaleSq.z + literal (1 / 5) * scaleSq.x))
  | .capsule radius height =>
    let lx := two * (radius + height / two)
    let ly := two * radius
    let lz := two * radius
    let scaledmass := 1 / invMass * literal (8333333 / 100000000)
    .diagonal (1 / scaledmass * (ly * ly + lz * lz)) (1 / scaledmass * (lx * lx + lz * lz))
      (1 / scaledmass * (lx * lx + ly * ly))

/-- `GetMinMaxVertexOnAxis`, of no object. -/
def getMinMaxVertexOnAxis (shape : BodyShape K) (axis : Vector3 K) : Vector3 K × Vector3 K :=
  match shape.data with
  | .cuboid | .pyramid _ | .hull _ =>
    let localAxis := shape.localTransform.toMatrix3.transpose.apply axis
    let (vMin, vMax) := shape.data.toHull.getMinMaxVerticesInAxis localAxis
    (shape.localTransform.apply (shape.data.toHull.getVertex vMin),
     shape.localTransform.apply (shape.data.toHull.getVertex vMax))
  | .sphere radius | .capsule radius _ =>
    let pos := shape.localTransform.position
    (pos - axis * radius, pos + axis * radius)

/-- What `SetCollisionShape` makes of a type, an error for hulls and types there are not. -/
def ofType (type : Nat) : Option (BodyShape K) :=
  let half : Vector3 K := ⟨literal (1 / 2), literal (1 / 2), literal (1 / 2)⟩
  match type with
  | 1 => some ⟨⟨.cuboid, .scaling ⟨1, 1, 1⟩⟩, half⟩
  | 2 => some ⟨⟨.sphere 1, .scaling ⟨1, 1, 1⟩⟩, half⟩
  | 3 => some ⟨⟨.pyramid fun _ => 0, .scaling half⟩, half⟩
  | 4 => some ⟨⟨.capsule 1 1, .scaling ⟨1, 1, 1⟩⟩, half⟩
  | _ => none

end BodyShape

end Shapes

/-! ## The body -/

structure RigidBody3D (K : Type) extends Pose K where
  linearVelocity : Vector3 K
  force : Vector3 K
  invMass : K
  angularVelocity : Vector3 K
  torque : Vector3 K
  invInertia : Matrix3 K
  collisionShape : Option (BodyShape K)
  isStatic : Bool
  isAtRest : Bool
  elasticity : K
  friction : K
  isTrigger : Bool
  restVelocityThresholdSquared : K
  averageSummedVelocity : K
  /-- The transform, and whether it is invalidated. -/
  wsTransform : Cached (Matrix4 K)
  localBoundingBox : BoundingBox K
  /-- The box, and whether it is invalidated. -/
  wsAabb : Cached (BoundingBox K)

structure RigidBody3DProperties (K : Type) where
  position : Vector3 K
  linearVelocity : Vector3 K
  force : Vector3 K
  mass : K
  orientation : Maths.Quaternion K
  angularVelocity : Vector3 K
  torque : Vector3 K
  isStatic : Bool
  elasticity : K
  friction : K
  atRest : Bool
  shape : Option (BodyShape K)

namespace RigidBody3D

section Caches

variable {K : Type} [FloatLiterals K]

/-- The box recomputed. -/
def worldSpaceAABB (body : RigidBody3D K) : BoundingBox K :=
  body.localBoundingBox.transformed body.worldSpaceTransform

def getWorldSpaceTransform (body : RigidBody3D K) : Matrix4 K × RigidBody3D K :=
  let wsTransform := body.wsTransform.refresh body.worldSpaceTransform
  (wsTransform.value, { body with wsTransform })

/-- The transform is only asked for when the box is to be computed again. -/
def getWorldSpaceAABB (body : RigidBody3D K) : BoundingBox K × RigidBody3D K :=
  if body.wsAabb.dirty then
    let (transform, body) := body.getWorldSpaceTransform
    let box := body.localBoundingBox.transformed transform
    (box, { body with wsAabb := ⟨box, false⟩ })
  else (body.wsAabb.value, body)

end Caches

/-! ## Setters -/

section Setters

variable {K : Type} [FloatInfinity K] (body : RigidBody3D K)

def autoResizeBoundingBox : RigidBody3D K :=
  let box :=
    match body.collisionShape with
    | none => .cleared
    | some shape =>
      let axes : List (Vector3 K) := [⟨1, 0, 0⟩, ⟨0, 1, 0⟩, ⟨0, 0, 1⟩]
      axes.foldl (fun box axis =>
        let (lower, upper) := shape.getMinMaxVertexOnAxis axis
        (box.mergePoint lower).mergePoint upper) .cleared
  { body with localBoundingBox := box, wsAabb := body.wsAabb.invalidate }

/-- What setters of the mass and the shape do. -/
def updateInverseInertia : RigidBody3D K :=
  match body.collisionShape with
  | some shape => { body with invInertia := shape.buildInverseInertia body.invMass }
  | none => body

def setLocalBoundingBox (bb : BoundingBox K) : RigidBody3D K :=
  { body with localBoundingBox := bb, wsAabb := body.wsAabb.invalidate }

def setPosition (v : Vector3 K) : RigidBody3D K :=
  { body with position := v, wsTransform := body.wsTransform.invalidate, wsAabb := body.wsAabb.invalidate }

/-- The box is left as it is. -/
def setOrientation (v : Maths.Quaternion K) : RigidBody3D K :=
  { body with orientation := v, wsTransform := body.wsTransform.invalidate }

def setLinearVelocity (v : Vector3 K) : RigidBody3D K :=
  if body.isStatic then body else { body with linearVelocity := v }

def setForce (v : Vector3 K) : RigidBody3D K := if body.isStatic then body else { body with force := v }

def setAngularVelocity (v : Vector3 K) : RigidBody3D K :=
  if body.isStatic then body else { body with angularVelocity := v }

def setTorque (v : Vector3 K) : RigidBody3D K := if body.isStatic then body else { body with torque := v }

def setInverseInertia (v : Matrix3 K) : RigidBody3D K := { body with invInertia := v }

def setIsAtRest (isAtRest : Bool) : RigidBody3D K := { body with isAtRest }

def wakeUp : RigidBody3D K := body.setIsAtRest false

def setIsStatic (isStatic : Bool) : RigidBody3D K := { body with isStatic }

def setElasticity (elasticity : K) : RigidBody3D K := { body with elasticity }

def setFriction (friction : K) : RigidBody3D K := { body with friction }

def setIsTrigger (trigger : Bool) : RigidBody3D K := { body with isTrigger := trigger }

def setRestVelocityThreshold (vel : K) : RigidBody3D K :=
  { body with restVelocityThresholdSquared := if le vel 0 then -1 else vel * vel }

/-- `SetCollisionShape`, of a shape there is. -/
def setCollisionShape (shape : BodyShape K) : RigidBody3D K :=
  { body with collisionShape := some shape, invInertia := shape.buildInverseInertia body.invMass }.autoResizeBoundingBox

/-- `SetCollisionShape`, of a type. -/
def setCollisionShapeType (type : Nat) : RigidBody3D K :=
  match BodyShape.ofType type with
  | some shape => body.setCollisionShape shape
  | none => body

def collisionShapeUpdated : RigidBody3D K := body.updateInverseInertia.autoResizeBoundingBox

def setInverseMass (v : K) : RigidBody3D K := { body with invMass := v }.updateInverseInertia

def setMass (v : K) : RigidBody3D K := { body with invMass := 1 / v }.updateInverseInertia

/-- What `FireOnCollisionEvent` does when the callback wants the collision handled. -/
def fireOnCollisionEvent (handleCollision : Bool) : RigidBody3D K :=
  if handleCollision then body.wakeUp else body

/-- `load`, which writes the fields over. The mass goes into a temporary. -/
def load (properties : RigidBody3DProperties K) (trigger : Bool) : RigidBody3D K :=
  { body with
    position := properties.position
    orientation := properties.orientation
    linearVelocity := properties.linearVelocity
    force := properties.force
    angularVelocity := properties.angularVelocity
    torque := properties.torque
    isStatic := properties.isStatic
    friction := properties.friction
    elasticity := properties.elasticity
    collisionShape := properties.shape
    isTrigger := trigger }.collisionShapeUpdated

def restTest : RigidBody3D K :=
  if le body.restVelocityThresholdSquared 0 then body
  else
    let v := body.linearVelocity.lengthSquared + body.angularVelocity.lengthSquared
    let average := body.averageSummedVelocity + literal (7 / 10) * (v - body.averageSummedVelocity)
    { body with averageSummedVelocity := average }.setIsAtRest (le average body.restVelocityThresholdSquared)

/-- `RigidBody3D()` -/
def create (properties : RigidBody3DProperties K) : RigidBody3D K :=
  let body : RigidBody3D K :=
    { position := properties.position
      orientation := properties.orientation
      linearVelocity := properties.linearVelocity
      force := properties.force
      invMass := 1 / properties.mass
      angularVelocity := properties.angularVelocity
      torque := properties.torque
      invInertia := ⟨0, 0, 0, 0, 0, 0, 0, 0, 0⟩
      collisionShape := none
      isStatic := properties.isStatic
      isAtRest := properties.atRest
      elasticity := properties.elasticity
      friction := properties.friction
      isTrigger := false
      restVelocityThresholdSquared := literal (1 / 1000)
      averageSummedVelocity := 0
      wsTransform := ⟨.scaling ⟨1, 1, 1⟩, true⟩
      localBoundingBox := ⟨.fill (literal (-1 / 2)), .fill (literal (1 / 2))⟩
      wsAabb := ⟨.cleared, true⟩ }
  match properties.shape with
  | some shape => body.setCollisionShape shape
  | none => body

end Setters

end RigidBody3D

end Lumos.Physics.Dynamics
