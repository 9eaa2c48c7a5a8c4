import Lumos.Library.Exchange
import Lumos.Physics.RigidBody3D

/-!
# `SolveConstraints`

Contacts of manifolds and constraints between two bodies push the bodies apart or together.
A pointer to a body is its number among those of the engine.
-/
namespace Lumos.Physics.Dynamics

open Maths FloatArithmetic FloatLiterals

variable {K : Type} {n : Nat}

structure ContactPoint (K : Type) where
  sumImpulseContact : K
  sumImpulseFriction : K
  elatisityTerm : K
  collisionPenetration : K
  collisionNormal : Vector3 K
  relPosA : Vector3 K
  relPosB : Vector3 K

structure Manifold (n : Nat) (K : Type) where
  nodeA : Fin n
  nodeB : Fin n
  /-- Those in use. -/
  contacts : List (ContactPoint K)

structure DistanceConstraint (n : Nat) (K : Type) where
  obj1 : Fin n
  obj2 : Fin n
  distance : K
  localOnA : Vector3 K
  localOnB : Vector3 K

structure SpringConstraint (n : Nat) (K : Type) where
  obj1 : Fin n
  obj2 : Fin n
  restDistance : K
  springConstant : K
  dampingFactor : K
  localOnA : Vector3 K
  localOnB : Vector3 K

inductive Constraint (n : Nat) (K : Type) where
  | distance (constraint : DistanceConstraint n K)
  | spring (constraint : SpringConstraint n K)

variable [FloatInfinity K]

/-! ## Two bodies -/

/-- `GetInverseMass() + GetInverseMass() == 0.0f` -/
def immovable (a b : RigidBody3D K) : Bool :=
  let sum := a.invMass + b.invMass
  le sum 0 && le 0 sum

/-- The velocity of a point of the body. -/
def pointVelocity (body : RigidBody3D K) (r : Vector3 K) : Vector3 K :=
  body.linearVelocity + body.angularVelocity.crossProduct r

/-- `constraintMass`, and `frictionalMass` along the tangent. -/
def constraintMass (a b : RigidBody3D K) (r1 r2 direction : Vector3 K) : K :=
  (a.invMass + b.invMass) +
    direction.dotProduct
      ((a.invInertia.apply (r1.crossProduct direction)).crossProduct r1 +
        (b.invInertia.apply (r2.crossProduct direction)).crossProduct r2)

/-- The setters called at the end of solving something: each reads what the one before has
left. -/
def applyImpulsePair (bodies : Fin n → RigidBody3D K) (a b : Fin n) (r1 r2 direction : Vector3 K) (j : K) :
    Fin n → RigidBody3D K :=
  let bodies := Function.update bodies a
    ((bodies a).setLinearVelocity ((bodies a).linearVelocity + direction * (j * (bodies a).invMass)))
  let bodies := Function.update bodies b
    ((bodies b).setLinearVelocity ((bodies b).linearVelocity - direction * (j * (bodies b).invMass)))
  let bodies := Function.update bodies a
    ((bodies a).setAngularVelocity
      ((bodies a).angularVelocity + (bodies a).invInertia.apply (r1.crossProduct (direction * j))))
  Function.update bodies b
    ((bodies b).setAngularVelocity
      ((bodies b).angularVelocity - (bodies b).invInertia.apply (r2.crossProduct (direction * j))))

/-! ## Contacts -/

section Contacts

variable (deltaTime : K)

/-- The normal impulse of a contact, and the sum of them with it. -/
def contactImpulse (a b : RigidBody3D K) (c : ContactPoint K) (dv : Vector3 K) : K × K :=
  let normal := c.collisionNormal
  let mass := constraintMass a b c.relPosA c.relPosB normal
  let baumgarteScalar : K := literal (3 / 10)
  let baumgarteSlop : K := literal (1 / 1000)
  let penetrationSlop := minFloat (c.collisionPenetration + baumgarteSlop) 0
  let b := -(baumgarteScalar / deltaTime) * penetrationSlop
  let b_real := maxFloat b (c.elatisityTerm + b * literal (1 / 5))
  let jn := -(dv.dotProduct normal + b_real) / mass
  let sumImpulseContact := minFloat (c.sumImpulseContact + jn) 0
  (sumImpulseContact - c.sumImpulseContact, sumImpulseContact)

/-- The friction impulse along the tangent, clamped, and the sum of them with it. -/
def frictionImpulse (a b : RigidBody3D K) (c : ContactPoint K) (dv tangent : Vector3 K) : K × K :=
  let frictionalMass := constraintMass a b c.relPosA c.relPosB tangent
  let frictionCoef := sqrtf (a.friction * b.friction)
  let jt := -1 * frictionCoef * dv.dotProduct tangent / frictionalMass
  let maxJt := frictionCoef * c.sumImpulseContact
  let sumImpulseFriction := minFloat (maxFloat (c.sumImpulseFriction + jt) maxJt) (-maxJt)
  (sumImpulseFriction - c.sumImpulseFriction, sumImpulseFriction)

def solveContactPoint (a b : Fin n) (bodies : Fin n → RigidBody3D K) (c : ContactPoint K) :
    (Fin n → RigidBody3D K) × ContactPoint K :=
  if immovable (bodies a) (bodies b) then (bodies, c)
  else
    let v0 := pointVelocity (bodies a) c.relPosA
    let v1 := pointVelocity (bodies b) c.relPosB
    let normal := c.collisionNormal
    let dv := v0 - v1
    let (jn, sumImpulseContact) := contactImpulse deltaTime (bodies a) (bodies b) c dv
    let c := { c with sumImpulseContact }
    let bodies := applyImpulsePair bodies a b c.relPosA c.relPosB normal jn
    let tangent := dv - normal * dv.dotProduct normal
    let tangentLen := tangent.length
    if lt (literal (1 / 1000)) tangentLen then
      let tangent := tangent * (1 / tangentLen)
      let (jt, sumImpulseFriction) := frictionImpulse (bodies a) (bodies b) c dv tangent
      (applyImpulsePair bodies a b c.relPosA c.relPosB tangent jt, { c with sumImpulseFriction })
    else (bodies, c)

namespace Manifold

/-- `UpdateConstraint` -/
def updateConstraint (a b : RigidBody3D K) (contact : ContactPoint K) : ContactPoint K :=
  let elasticity := sqrtf (a.elasticity * b.elasticity)
  let term := elasticity * contact.collisionNormal.dotProduct
    (a.linearVelocity + contact.relPosA.crossProduct a.angularVelocity - b.linearVelocity -
      contact.relPosB.crossProduct b.angularVelocity)
  let elatisityTerm := if lt term 0 then 0 else if lt term (literal (1 / 5)) then 0 else term
  { contact with sumImpulseContact := 0, sumImpulseFriction := 0, elatisityTerm }

def preSolverStep (bodies : Fin n → RigidBody3D K) (m : Manifold n K) : Manifold n K :=
  { m with contacts := m.contacts.map (updateConstraint (bodies m.nodeA) (bodies m.nodeB)) }

def applyImpulse (bodies : Fin n → RigidBody3D K) (m : Manifold n K) :
    (Fin n → RigidBody3D K) × Manifold n K :=
  let (bodies, contacts) := Exchange.thread (solveContactPoint deltaTime m.nodeA m.nodeB) bodies m.contacts
  (bodies, { m with contacts })

end Manifold

/-! ## Constraints -/

/-- What the two kinds of constraint start from: the arms, the way from one point to the
other, its direction, the relative velocity and the mass. -/
structure Joint (K : Type) where
  r1 : Vector3 K
  r2 : Vector3 K
  ab : Vector3 K
  abn : Vector3 K
  dv : Vector3 K
  constraintMass : K

def joint (a b : RigidBody3D K) (localOnA localOnB : Vector3 K) : Joint K :=
  let r1 := a.orientation.rotationMatrix.apply localOnA
  let r2 := b.orientation.rotationMatrix.apply localOnB
  let ab := (r2 + b.position) - (r1 + a.position)
  let abn := ab.normalize
  ⟨r1, r2, ab, abn, pointVelocity a r1 - pointVelocity b r2, constraintMass a b r1 r2 abn⟩

/-- The correction of how far a distance is off. -/
def baumgarte (distanceOffset : K) : K := -(literal (1 / 10) / deltaTime) * distanceOffset

def DistanceConstraint.applyImpulse (bodies : Fin n → RigidBody3D K) (c : DistanceConstraint n K) :
    Fin n → RigidBody3D K :=
  if immovable (bodies c.obj1) (bodies c.obj2) then bodies
  else
    let j := joint (bodies c.obj1) (bodies c.obj2) c.localOnA c.localOnB
    let b := baumgarte deltaTime (j.ab.length - c.distance)
    let jn := -(j.dv.dotProduct j.abn + b) / j.constraintMass
    applyImpulsePair bodies c.obj1 c.obj2 j.r1 j.r2 j.abn jn

def SpringConstraint.applyImpulse (bodies : Fin n → RigidBody3D K) (c : SpringConstraint n K) :
    Fin n → RigidBody3D K :=
  if immovable (bodies c.obj1) (bodies c.obj2) then bodies
  else
    let j := joint (bodies c.obj1) (bodies c.obj2) c.localOnA c.localOnB
    let b := baumgarte deltaTime (j.ab.length - c.restDistance)
    let jn := (-(j.dv.dotProduct j.abn + b) * c.springConstant - c.dampingFactor * j.dv.length) / j.constraintMass
    applyImpulsePair bodies c.obj1 c.obj2 j.r1 j.r2 j.abn jn

def Constraint.applyImpulse (bodies : Fin n → RigidBody3D K) : Constraint n K → Fin n → RigidBody3D K
  | .distance constraint => constraint.applyImpulse deltaTime bodies
  | .spring constraint => constraint.applyImpulse deltaTime bodies

/-! ## The solver -/

/-- The bodies and manifolds; the constraints do not change. -/
structure SolverState (n : Nat) (K : Type) where
  bodies : Fin n → RigidBody3D K
  manifolds : List (Manifold n K)

/-- `SOLVER_ITERATIONS` -/
def solverIterations : Nat := 50

def preSolverSteps (s : SolverState n K) : SolverState n K :=
  { s with manifolds := s.manifolds.map (Manifold.preSolverStep s.bodies) }

def applyImpulses (constraints : List (Constraint n K)) (s : SolverState n K) : SolverState n K :=
  let (bodies, manifolds) := Exchange.thread (Manifold.applyImpulse deltaTime) s.bodies s.manifolds
  ⟨constraints.foldl (Constraint.applyImpulse deltaTime) bodies, manifolds⟩

/-- The constraints do nothing before the solver's steps. -/
def solveConstraints (constraints : List (Constraint n K)) (s : SolverState n K) : SolverState n K :=
  (applyImpulses deltaTime constraints)^[solverIterations] (preSolverSteps s)

end Contacts

end Lumos.Physics.Dynamics
