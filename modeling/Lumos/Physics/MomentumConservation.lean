import Mathlib.Tactic.FieldSimp
import Mathlib.Tactic.Ring
import Lumos.Maths.ExactArithmetic
import Lumos.Physics.ConstraintSolver

/-!
# The solver conserves linear momentum

Whatever impulse is computed, what it adds to the momentum of one body it takes from that of
the other.
-/
namespace Lumos.Physics.Dynamics

open Maths FloatArithmetic Exchange

variable {K : Type} [ExactArithmetic K] {n : Nat}

/-- Mass times linear velocity, along an axis. -/
def RigidBody3D.momentum (body : RigidBody3D K) (axis : Fin 3) : K :=
  1 / body.invMass * body.linearVelocity.get axis

def totalMomentum (bodies : Fin n → RigidBody3D K) : Fin 3 → K := total RigidBody3D.momentum bodies

/-- Not static, and of finite mass. -/
def Movable (bodies : Fin n → RigidBody3D K) : Prop :=
  ∀ i, (bodies i).isStatic = false ∧ (bodies i).invMass ≠ 0

/-- Bodies that can move, with a total momentum. -/
structure Balanced (p : Fin 3 → K) (bodies : Fin n → RigidBody3D K) : Prop where
  movable : Movable bodies
  momentum : totalMomentum bodies = p

/-! ## Setters of a body that can move -/

theorem momentum_add {m : K} (hm : m ≠ 0) (v d j : K) : 1 / m * (v + d * (j * m)) = 1 / m * v + d * j := by
  field_simp

theorem momentum_sub {m : K} (hm : m ≠ 0) (v d j : K) : 1 / m * (v - d * (j * m)) = 1 / m * v - d * j := by
  field_simp

namespace RigidBody3D

variable {body : RigidBody3D K}

/-- What an impulse along a direction gives to the momentum. -/
def impulse (direction : Vector3 K) (j : K) (axis : Fin 3) : K := direction.get axis * j

theorem momentum_push (hstatic : body.isStatic = false) (hmass : body.invMass ≠ 0) (direction : Vector3 K)
    (j : K) :
    (body.setLinearVelocity (body.linearVelocity + direction * (j * body.invMass))).momentum =
      body.momentum + impulse direction j := by
  rw [setLinearVelocity, hstatic]
  funext axis
  match axis with
  | 0 => exact momentum_add hmass body.linearVelocity.x direction.x j
  | 1 => exact momentum_add hmass body.linearVelocity.y direction.y j
  | 2 => exact momentum_add hmass body.linearVelocity.z direction.z j

theorem momentum_pull (hstatic : body.isStatic = false) (hmass : body.invMass ≠ 0) (direction : Vector3 K)
    (j : K) :
    (body.setLinearVelocity (body.linearVelocity - direction * (j * body.invMass))).momentum =
      body.momentum - impulse direction j := by
  rw [setLinearVelocity, hstatic]
  funext axis
  match axis with
  | 0 => exact momentum_sub hmass body.linearVelocity.x direction.x j
  | 1 => exact momentum_sub hmass body.linearVelocity.y direction.y j
  | 2 => exact momentum_sub hmass body.linearVelocity.z direction.z j

theorem momentum_setAngularVelocity (body : RigidBody3D K) (v : Vector3 K) :
    (body.setAngularVelocity v).momentum = body.momentum := by
  unfold setAngularVelocity
  split <;> rfl

omit [ExactArithmetic K] in
theorem setLinearVelocity_keeps (body : RigidBody3D K) (v : Vector3 K) :
    (body.setLinearVelocity v).isStatic = body.isStatic ∧ (body.setLinearVelocity v).invMass = body.invMass := by
  unfold setLinearVelocity
  split <;> exact ⟨rfl, rfl⟩

omit [ExactArithmetic K] in
theorem setAngularVelocity_keeps (body : RigidBody3D K) (v : Vector3 K) :
    (body.setAngularVelocity v).isStatic = body.isStatic ∧ (body.setAngularVelocity v).invMass = body.invMass := by
  unfold setAngularVelocity
  split <;> exact ⟨rfl, rfl⟩

end RigidBody3D

/-! ## One impulse -/

variable {bodies : Fin n → RigidBody3D K} {p : Fin 3 → K}

theorem Movable.update (h : Movable bodies) {i : Fin n} {body : RigidBody3D K}
    (hkeeps : body.isStatic = (bodies i).isStatic ∧ body.invMass = (bodies i).invMass) :
    Movable (Function.update bodies i body) := by
  intro k
  by_cases hk : k = i
  · subst hk
    rw [Function.update_self, hkeeps.1, hkeeps.2]
    exact h k
  · rw [Function.update_of_ne hk]
    exact h k

/-- The first body is pushed, and then the second one pulled. -/
theorem Balanced.transfer (h : Balanced p bodies) (a b : Fin n) (direction : Vector3 K) (j : K) :
    let pushed := Function.update bodies a
      ((bodies a).setLinearVelocity ((bodies a).linearVelocity + direction * (j * (bodies a).invMass)))
    Balanced p (Function.update pushed b
      ((pushed b).setLinearVelocity ((pushed b).linearVelocity - direction * (j * (pushed b).invMass)))) := by
  intro pushed
  have hpushed : Movable pushed := h.movable.update (RigidBody3D.setLinearVelocity_keeps _ _)
  constructor
  · exact hpushed.update (RigidBody3D.setLinearVelocity_keeps _ _)
  · have hpush := RigidBody3D.momentum_push (h.movable a).1 (h.movable a).2 direction j
    have hpull := RigidBody3D.momentum_pull (hpushed b).1 (hpushed b).2 direction j
    rw [totalMomentum, total_transfer RigidBody3D.momentum hpush hpull]
    exact h.momentum

theorem Balanced.setAngularVelocity (h : Balanced p bodies) (i : Fin n) (v : Vector3 K) :
    Balanced p (Function.update bodies i ((bodies i).setAngularVelocity v)) := by
  constructor
  · exact h.movable.update (RigidBody3D.setAngularVelocity_keeps _ _)
  · rw [totalMomentum, total_update, RigidBody3D.momentum_setAngularVelocity, sub_self, add_zero]
    exact h.momentum

theorem Balanced.applyImpulsePair (h : Balanced p bodies) (a b : Fin n) (r1 r2 direction : Vector3 K) (j : K) :
    Balanced p (applyImpulsePair bodies a b r1 r2 direction j) :=
  ((h.transfer a b direction j).setAngularVelocity a _).setAngularVelocity b _

/-! ## The three kinds of constraint -/

variable (deltaTime : K)

theorem Balanced.solveContactPoint (h : Balanced p bodies) (a b : Fin n) (c : ContactPoint K) :
    Balanced p (solveContactPoint deltaTime a b bodies c).1 := by
  unfold Dynamics.solveContactPoint
  split
  · exact h
  · dsimp only
    split
    · exact (h.applyImpulsePair a b _ _ _ _).applyImpulsePair a b _ _ _ _
    · exact h.applyImpulsePair a b _ _ _ _

theorem Balanced.applyManifold (h : Balanced p bodies) (m : Manifold n K) :
    Balanced p (m.applyImpulse deltaTime bodies).1 :=
  thread_preserves _ (fun _ c h => h.solveContactPoint deltaTime m.nodeA m.nodeB c) m.contacts h

theorem Balanced.applyConstraint (h : Balanced p bodies) (c : Constraint n K) :
    Balanced p (Constraint.applyImpulse deltaTime bodies c) := by
  cases c with
  | distance constraint =>
    simp only [Constraint.applyImpulse, DistanceConstraint.applyImpulse]
    split
    · exact h
    · exact h.applyImpulsePair constraint.obj1 constraint.obj2 _ _ _ _
  | spring constraint =>
    simp only [Constraint.applyImpulse, SpringConstraint.applyImpulse]
    split
    · exact h
    · exact h.applyImpulsePair constraint.obj1 constraint.obj2 _ _ _ _

/-! ## The solver -/

theorem Balanced.applyConstraints (h : Balanced p bodies) (constraints : List (Constraint n K)) :
    Balanced p (constraints.foldl (Constraint.applyImpulse deltaTime) bodies) := by
  induction constraints generalizing bodies with
  | nil => exact h
  | cons c constraints ih => exact ih (h.applyConstraint deltaTime c)

theorem Balanced.applyImpulses (constraints : List (Constraint n K)) {s : SolverState n K}
    (h : Balanced p s.bodies) : Balanced p (applyImpulses deltaTime constraints s).bodies := by
  have hmanifolds : Balanced p (thread (Manifold.applyImpulse deltaTime) s.bodies s.manifolds).1 :=
    thread_preserves (P := Balanced p) _ (fun _ m h => Balanced.applyManifold deltaTime h m) s.manifolds h
  exact hmanifolds.applyConstraints deltaTime constraints

theorem Balanced.iterations (constraints : List (Constraint n K)) (iterations : Nat) {s : SolverState n K}
    (h : Balanced p s.bodies) :
    Balanced p ((Dynamics.applyImpulses deltaTime constraints)^[iterations] s).bodies := by
  induction iterations generalizing s with
  | zero => exact h
  | succ iterations ih => exact ih (h.applyImpulses deltaTime constraints)

/-- Among bodies that are not static and have finite masses, solving any manifolds and
constraints leaves the total linear momentum as it was. -/
theorem totalMomentum_solveConstraints (constraints : List (Constraint n K)) (s : SolverState n K)
    (h : Movable s.bodies) :
    totalMomentum (solveConstraints deltaTime constraints s).bodies = totalMomentum s.bodies := by
  have hbalanced : Balanced (totalMomentum s.bodies) (preSolverSteps s).bodies := ⟨h, rfl⟩
  exact (hbalanced.iterations deltaTime constraints solverIterations).momentum

/-- Two bodies that run into each other and are tied together by a spring. -/
theorem totalMomentum_solveConstraints_pair :
    let body (x v : ℚ) := RigidBody3D.create
      ⟨⟨x, 0, 0⟩, ⟨v, 0, 0⟩, 0, 2, ⟨1, 0, 0, 0⟩, 0, 0, false, 9 / 10, 4 / 5, false, none⟩
    let bodies : Fin 2 → RigidBody3D ℚ := fun i => if i = 0 then body 0 1 else body 1 (-3)
    let contact : ContactPoint ℚ := ⟨0, 0, 0, -1 / 100, ⟨1, 0, 0⟩, ⟨1 / 2, 0, 0⟩, ⟨-1 / 2, 0, 0⟩⟩
    let spring : SpringConstraint 2 ℚ := ⟨0, 1, 2, 1, 1, 0, 0⟩
    totalMomentum (solveConstraints (1 / 60) [.spring spring] ⟨bodies, [⟨0, 1, [contact]⟩]⟩).bodies =
      totalMomentum bodies := by
  intro body bodies contact spring
  have hbody : ∀ x v, (body x v).isStatic = false ∧ (body x v).invMass ≠ 0 := by
    intro x v
    refine ⟨rfl, ?_⟩
    change (1 : ℚ) / 2 ≠ 0
    decide +kernel
  have hmovable : Movable bodies := by
    intro i
    match i with
    | 0 => exact hbody 0 1
    | 1 => exact hbody 1 (-3)
  exact totalMomentum_solveConstraints (1 / 60) [.spring spring] ⟨bodies, [⟨0, 1, [contact]⟩]⟩ hmovable

end Lumos.Physics.Dynamics
