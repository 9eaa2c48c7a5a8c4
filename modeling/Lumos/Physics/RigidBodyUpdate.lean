import Lumos.Physics.RigidBody3D

/-!
# `UpdateRigidBody` and `Integration`
-/
namespace Lumos.Physics.Dynamics

open Maths FloatArithmetic FloatLiterals

namespace Integration

variable {K : Type} [FloatLiterals K]

structure State (K : Type) where
  position : Vector3 K
  velocity : Vector3 K
  acceleration : Vector3 K

structure Derivative (K : Type) where
  acceleration : Vector3 K
  velocity : Vector3 K

/-- Called with the time where the step is expected and the other way round. -/
def evaluate (initial : State K) (dt _t : K) (derivative : Derivative K) : Derivative K where
  velocity := initial.velocity + derivative.acceleration * dt
  acceleration := initial.acceleration

def RK2 (state : State K) (t dt : K) : State K :=
  let a := evaluate state t 0 ⟨0, 0⟩
  let b := evaluate state t (dt * literal (1 / 2)) a
  let dxdt := (a.velocity + b.velocity) * (literal (1 / 2) : K)
  let dvdt := (a.acceleration + b.acceleration) * (literal (1 / 2) : K)
  { state with position := state.position + dxdt * dt, velocity := state.velocity + dvdt * dt }

def RK4 (state : State K) (t dt : K) : State K :=
  let a := evaluate state t 0 ⟨0, 0⟩
  let b := evaluate state t (dt * literal (1 / 2)) a
  let c := evaluate state t (dt * literal (1 / 2)) b
  let d := evaluate state t dt c
  let sixth (v : Vector3 K) : Vector3 K :=
    let v := v * (1 : K)
    ⟨v.x / literal 6, v.y / literal 6, v.z / literal 6⟩
  let dxdt := sixth (a.velocity + (b.velocity + c.velocity) * (two : K) + d.velocity)
  let dvdt := sixth (a.acceleration + (b.acceleration + c.acceleration) * (two : K) + d.acceleration)
  { state with position := state.position + dxdt * dt, velocity := state.velocity + dvdt * dt }

end Integration

inductive IntegrationType where
  | EXPLICIT_EULER | SEMI_IMPLICIT_EULER | RUNGE_KUTTA_2 | RUNGE_KUTTA_4
  deriving DecidableEq, Repr

/-- What an update reads of the engine. -/
structure EngineSettings (K : Type) where
  dampingFactor : K
  gravity : Vector3 K
  updateTimestep : K
  integrationType : IntegrationType

namespace RigidBody3D

variable {K : Type} [FloatInfinity K] (engine : EngineSettings K) (body : RigidBody3D K)

def applyGravity : RigidBody3D K :=
  if lt 0 body.invMass then
    { body with linearVelocity := body.linearVelocity + engine.gravity * engine.updateTimestep }
  else body

def dampLinearVelocity : RigidBody3D K :=
  { body with linearVelocity := body.linearVelocity * engine.dampingFactor }

/-- The angular velocity updated and damped. -/
def updateAngularVelocity : RigidBody3D K :=
  { body with
    angularVelocity :=
      (body.angularVelocity + body.invInertia.apply body.torque * engine.updateTimestep) * engine.dampingFactor }

def updateOrientation : RigidBody3D K :=
  let turn := (body.angularVelocity * engine.updateTimestep * (literal (1 / 2) : K))
  { body with orientation := (body.orientation + Quaternion.turn turn body.orientation).normalize }

/-- The linear motion of the two Runge-Kutta methods. -/
def integrateLinear (method : Integration.State K → K → K → Integration.State K) : RigidBody3D K :=
  let state := method ⟨body.position, body.linearVelocity, body.force * body.invMass⟩ 0 engine.updateTimestep
  { body with position := state.position, linearVelocity := state.velocity }

def explicitEuler : RigidBody3D K :=
  let body := { body with position := body.position + body.linearVelocity * engine.updateTimestep }
  let body :=
    { body with linearVelocity := body.linearVelocity + body.force * body.invMass * engine.updateTimestep }
  ((body.dampLinearVelocity engine).updateOrientation engine).updateAngularVelocity engine

/-- The velocity takes the place of the force. -/
def semiImplicitEuler : RigidBody3D K :=
  let body :=
    { body with linearVelocity := body.linearVelocity + body.linearVelocity * body.invMass * engine.updateTimestep }
  let body := body.dampLinearVelocity engine
  let body := { body with position := body.position + body.linearVelocity * engine.updateTimestep }
  (body.updateAngularVelocity engine).updateOrientation engine

def rungeKutta (method : Integration.State K → K → K → Integration.State K) : RigidBody3D K :=
  (((body.integrateLinear engine method).dampLinearVelocity engine).updateAngularVelocity engine).updateOrientation
    engine

def integrate : RigidBody3D K :=
  match engine.integrationType with
  | .EXPLICIT_EULER => body.explicitEuler engine
  | .SEMI_IMPLICIT_EULER => body.semiImplicitEuler engine
  | .RUNGE_KUTTA_2 => body.rungeKutta engine Integration.RK2
  | .RUNGE_KUTTA_4 => body.rungeKutta engine Integration.RK4

/-- `UpdateRigidBody`, which says itself that the caches are out of date. -/
def update : RigidBody3D K :=
  if !body.isStatic && !body.isAtRest then
    let body := (body.applyGravity engine).integrate engine
    { body with wsTransform := body.wsTransform.invalidate, wsAabb := body.wsAabb.invalidate }.restTest
  else body

end RigidBody3D

end Lumos.Physics.Dynamics
