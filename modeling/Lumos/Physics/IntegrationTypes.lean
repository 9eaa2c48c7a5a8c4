import Lumos.Maths.ExactArithmetic
import Lumos.Physics.RigidBodyUpdate

/-!
# Steps under a constant acceleration

The stages of `RK2` and `RK4` are taken the time of the state ahead where they should be taken
some part of the step ahead. What a step adds to the position is right only if the two happen
to have the same effect.
-/
namespace Lumos.Physics.Dynamics.Integration

open Maths FloatArithmetic FloatLiterals

/-- Where a constant acceleration leads to. -/
noncomputable def State.after (state : State ℝ) (dt : ℝ) : State ℝ :=
  { state with
    position := state.position + state.velocity * dt + state.acceleration * (dt * dt / two)
    velocity := state.velocity + state.acceleration * dt }

/-- The state after a step whose stages look `ahead` on average. -/
noncomputable def State.ahead (state : State ℝ) (ahead dt : ℝ) : State ℝ :=
  { state with
    position := state.position + state.velocity * dt + state.acceleration * (ahead * dt)
    velocity := state.velocity + state.acceleration * dt }

variable (state : State ℝ) (t dt : ℝ)

theorem RK2_eq_ahead : RK2 state t dt = state.ahead (t / 2) dt := by
  simp only [RK2, evaluate, State.ahead, State.mk.injEq, Vector3.ext_iff, Vector3.add_x, Vector3.add_y,
    Vector3.add_z, Vector3.mul_x, Vector3.mul_y, Vector3.mul_z, Vector3.zero_x, Vector3.zero_y, Vector3.zero_z,
    literal_real]
  push_cast
  refine ⟨⟨?_, ?_, ?_⟩, ⟨?_, ?_, ?_⟩, trivial⟩ <;> ring

theorem RK4_eq_ahead : RK4 state t dt = state.ahead (5 * t / 6) dt := by
  simp only [RK4, evaluate, State.ahead, State.mk.injEq, Vector3.ext_iff, Vector3.add_x, Vector3.add_y,
    Vector3.add_z, Vector3.mul_x, Vector3.mul_y, Vector3.mul_z, Vector3.zero_x, Vector3.zero_y, Vector3.zero_z,
    literal_real, two_real]
  push_cast
  refine ⟨⟨?_, ?_, ?_⟩, ⟨?_, ?_, ?_⟩, trivial⟩ <;> ring

theorem ahead_eq_after_iff (ahead : ℝ) :
    state.ahead ahead dt = state.after dt ↔ state.acceleration = 0 ∨ dt = 0 ∨ 2 * ahead = dt := by
  constructor
  · intro h
    have hposition : (state.ahead ahead dt).position = (state.after dt).position := congrArg State.position h
    obtain ⟨hx, hy, hz⟩ := Vector3.ext_iff.mp hposition
    simp only [State.ahead, State.after, Vector3.add_x, Vector3.add_y, Vector3.add_z, Vector3.mul_x, Vector3.mul_y,
      Vector3.mul_z, two_real] at hx hy hz
    by_cases hsame : dt * (2 * ahead - dt) = 0
    · obtain hdt | hahead := mul_eq_zero.mp hsame
      · exact .inr (.inl hdt)
      · exact .inr (.inr (sub_eq_zero.mp hahead))
    · left
      have hzero : ∀ c : ℝ, c * (dt * (2 * ahead - dt)) = 0 → c = 0 := fun c hc =>
        (mul_eq_zero.mp hc).resolve_right hsame
      ext
      · exact hzero _ (by linear_combination 2 * hx)
      · exact hzero _ (by linear_combination 2 * hy)
      · exact hzero _ (by linear_combination 2 * hz)
  · intro h
    have hpart : ∀ c : ℝ, c = 0 ∨ dt * (2 * ahead - dt) = 0 → c * (ahead * dt) = c * (dt * dt / 2) := by
      rintro c (rfl | hsame)
      · ring
      · linear_combination c / 2 * hsame
    have hcases : state.acceleration = 0 ∨ dt * (2 * ahead - dt) = 0 := by
      obtain hzero | rfl | rfl := h
      · exact .inl hzero
      · exact .inr (by ring)
      · exact .inr (by ring)
    rw [Vector3.ext_iff] at hcases
    simp only [State.ahead, State.after, State.mk.injEq, Vector3.ext_iff, Vector3.add_x, Vector3.add_y,
      Vector3.add_z, Vector3.mul_x, Vector3.mul_y, Vector3.mul_z, two_real]
    rw [hpart _ (hcases.imp_left fun h => h.1), hpart _ (hcases.imp_left fun h => h.2.1),
      hpart _ (hcases.imp_left fun h => h.2.2)]
    simp

theorem RK2_eq_after_iff : RK2 state t dt = state.after dt ↔ state.acceleration = 0 ∨ dt = 0 ∨ t = dt := by
  rw [RK2_eq_ahead, ahead_eq_after_iff, mul_div_cancel₀ t two_ne_zero]

theorem RK4_eq_after_iff : RK4 state t dt = state.after dt ↔ state.acceleration = 0 ∨ dt = 0 ∨ 5 * t = 3 * dt := by
  have hahead : 2 * (5 * t / 6) = dt ↔ 5 * t = 3 * dt :=
    ⟨fun h => by linear_combination 3 * h, fun h => by linear_combination h / 3⟩
  rw [RK4_eq_ahead, ahead_eq_after_iff, hahead]

/-- Both are exact only where there is nothing to get wrong. -/
theorem exact_iff : (RK2 state t dt = state.after dt ∧ RK4 state t dt = state.after dt) ↔
    state.acceleration = 0 ∨ dt = 0 := by
  rw [RK2_eq_after_iff, RK4_eq_after_iff]
  constructor
  · rintro ⟨hacceleration | hdt | rfl, h⟩
    · exact .inl hacceleration
    · exact .inr hdt
    · obtain hacceleration | ht | hratio := h
      · exact .inl hacceleration
      · exact .inr ht
      · exact .inr (by linarith)
  · rintro (hacceleration | hdt)
    · exact ⟨.inl hacceleration, .inl hacceleration⟩
    · exact ⟨.inr (.inl hdt), .inr (.inl hdt)⟩

/-- A body at rest that is pushed for one second from the time zero on stays where it is. -/
theorem RK2_stays : RK2 (⟨0, 0, ⟨1, 0, 0⟩⟩ : State ℝ) 0 1 ≠ State.after ⟨0, 0, ⟨1, 0, 0⟩⟩ 1 := by
  rw [Ne, RK2_eq_after_iff, Vector3.ext_iff]
  norm_num

end Lumos.Physics.Dynamics.Integration

/-!
## The integration types

What `UpdateRigidBody` makes of the velocities does not depend on the integration type, as far
as the types let the force act on the body. Explicit Euler turns the body before the torque acts
on it, the others after that.
-/
namespace Lumos.Physics.Dynamics

open Maths FloatArithmetic FloatLiterals

namespace RigidBody3D

/-! ## The velocities after an update -/

/-- The gravity a body feels. -/
noncomputable def feltGravity (engine : EngineSettings ℝ) (body : RigidBody3D ℝ) : Vector3 ℝ :=
  if lt 0 body.invMass then engine.gravity else 0

noncomputable def newLinearVelocity (engine : EngineSettings ℝ) (body : RigidBody3D ℝ) : Vector3 ℝ :=
  (body.linearVelocity + (body.feltGravity engine + body.force * body.invMass) * engine.updateTimestep) *
    engine.dampingFactor

noncomputable def newAngularVelocity (engine : EngineSettings ℝ) (body : RigidBody3D ℝ) : Vector3 ℝ :=
  (body.angularVelocity + body.invInertia.apply body.torque * engine.updateTimestep) * engine.dampingFactor

/-- The orientation after it has turned with a velocity. -/
noncomputable def turnedBy (engine : EngineSettings ℝ) (body : RigidBody3D ℝ) (velocity : Vector3 ℝ) :
    Maths.Quaternion ℝ :=
  (body.orientation +
    Quaternion.turn (velocity * engine.updateTimestep * (literal (1 / 2) : ℝ)) body.orientation).normalize

/-- The body at another place. -/
def placedAt (body : RigidBody3D ℝ) (position : Vector3 ℝ) (orientation : Maths.Quaternion ℝ) : RigidBody3D ℝ :=
  { body with position, orientation }

variable (engine : EngineSettings ℝ) (body : RigidBody3D ℝ)

/-- What an update makes of a body, up to its place. -/
noncomputable def moved : RigidBody3D ℝ :=
  { body with
    linearVelocity := body.newLinearVelocity engine
    angularVelocity := body.newAngularVelocity engine
    wsTransform := body.wsTransform.invalidate
    wsAabb := body.wsAabb.invalidate }.restTest

theorem applyGravity_eq : body.applyGravity engine =
    { body with linearVelocity := body.linearVelocity + body.feltGravity engine * engine.updateTimestep } := by
  unfold applyGravity feltGravity
  split
  · rfl
  · have hnothing : body.linearVelocity + (0 : Vector3 ℝ) * engine.updateTimestep = body.linearVelocity := by
      ext <;> simp
    rw [hnothing]

theorem restTest_placedAt (position : Vector3 ℝ) (orientation : Maths.Quaternion ℝ) :
    (body.placedAt position orientation).restTest = body.restTest.placedAt position orientation := by
  unfold restTest placedAt
  split <;> rfl

/-- The velocities add up the same way, whatever comes first. -/
theorem newLinearVelocity_eq : body.newLinearVelocity engine =
    (body.linearVelocity + body.feltGravity engine * engine.updateTimestep +
      body.force * body.invMass * engine.updateTimestep) * engine.dampingFactor := by
  ext
  · simp only [newLinearVelocity, Vector3.add_x, Vector3.mul_x]
    ring
  · simp only [newLinearVelocity, Vector3.add_y, Vector3.mul_y]
    ring
  · simp only [newLinearVelocity, Vector3.add_z, Vector3.mul_z]
    ring

/-! ## Each type -/

variable {engine body}

theorem update_of_integrate (hstatic : body.isStatic = false) (hawake : body.isAtRest = false)
    {position : Vector3 ℝ} {orientation : Maths.Quaternion ℝ}
    (h : (body.applyGravity engine).integrate engine =
      { body with
        linearVelocity := body.newLinearVelocity engine
        angularVelocity := body.newAngularVelocity engine
        position, orientation }) :
    body.update engine = (body.moved engine).placedAt position orientation := by
  have hcondition : (!body.isStatic && !body.isAtRest) = true := by simp [hstatic, hawake]
  rw [update, if_pos hcondition, h, moved, ← restTest_placedAt]
  rfl

variable (engine body) in
theorem update_explicitEuler (hstatic : body.isStatic = false) (hawake : body.isAtRest = false)
    (htype : engine.integrationType = .EXPLICIT_EULER) : ∃ position,
    body.update engine = (body.moved engine).placedAt position (body.turnedBy engine body.angularVelocity) := by
  use body.position + (body.linearVelocity + body.feltGravity engine * engine.updateTimestep) * engine.updateTimestep
  apply update_of_integrate hstatic hawake
  rw [integrate, htype, applyGravity_eq, newLinearVelocity_eq]
  rfl

/-- Of a method that gets the velocity right. -/
theorem rungeKutta_eq {method : Integration.State ℝ → ℝ → ℝ → Integration.State ℝ}
    (hmethod : ∀ state t dt, (method state t dt).velocity = state.velocity + state.acceleration * dt) :
    ∃ position, (body.applyGravity engine).rungeKutta engine method =
      { body with
        linearVelocity := body.newLinearVelocity engine
        angularVelocity := body.newAngularVelocity engine
        position
        orientation := body.turnedBy engine (body.newAngularVelocity engine) } := by
  rw [applyGravity_eq, newLinearVelocity_eq]
  simp only [rungeKutta, integrateLinear, hmethod]
  exact ⟨_, rfl⟩

variable (engine body) in
theorem update_rungeKutta (hstatic : body.isStatic = false) (hawake : body.isAtRest = false)
    (htype : engine.integrationType = .RUNGE_KUTTA_2 ∨ engine.integrationType = .RUNGE_KUTTA_4) : ∃ position,
    body.update engine =
      (body.moved engine).placedAt position (body.turnedBy engine (body.newAngularVelocity engine)) := by
  obtain ⟨position, hposition⟩ : ∃ position, (body.applyGravity engine).integrate engine = { body with
      linearVelocity := body.newLinearVelocity engine
      angularVelocity := body.newAngularVelocity engine
      position
      orientation := body.turnedBy engine (body.newAngularVelocity engine) } := by
    obtain htype | htype := htype
    · rw [integrate, htype]
      exact rungeKutta_eq fun state t dt => by rw [Integration.RK2_eq_ahead]; rfl
    · rw [integrate, htype]
      exact rungeKutta_eq fun state t dt => by rw [Integration.RK4_eq_ahead]; rfl
  exact ⟨position, update_of_integrate hstatic hawake hposition⟩

@[simp] theorem restTest_linearVelocity : body.restTest.linearVelocity = body.linearVelocity := by
  unfold restTest
  split <;> rfl

@[simp] theorem placedAt_linearVelocity (position : Vector3 ℝ) (orientation : Maths.Quaternion ℝ) :
    (body.placedAt position orientation).linearVelocity = body.linearVelocity := rfl

@[simp] theorem moved_linearVelocity : (body.moved engine).linearVelocity = body.newLinearVelocity engine :=
  restTest_linearVelocity

@[simp] theorem restTest_orientation : body.restTest.orientation = body.orientation := by
  unfold restTest
  split <;> rfl

variable (engine body) in
/-- Semi-implicit Euler takes the velocity for the force. -/
theorem update_semiImplicitEuler (hstatic : body.isStatic = false) (hawake : body.isAtRest = false)
    (htype : engine.integrationType = .SEMI_IMPLICIT_EULER) : (body.update engine).linearVelocity =
      { body with force := body.linearVelocity + body.feltGravity engine * engine.updateTimestep }.newLinearVelocity
        engine := by
  have hcondition : (!body.isStatic && !body.isAtRest) = true := by simp [hstatic, hawake]
  rw [update, if_pos hcondition, restTest_linearVelocity, integrate, htype, applyGravity_eq, newLinearVelocity_eq]
  rfl

/-! ## All types but semi-implicit Euler -/

/-- The velocity a body turns with in an update. -/
noncomputable def turningVelocity (engine : EngineSettings ℝ) (body : RigidBody3D ℝ) : IntegrationType → Vector3 ℝ
  | .EXPLICIT_EULER => body.angularVelocity
  | _ => body.newAngularVelocity engine

/-- The types differ in where they put the body, and explicit Euler in how it turns it. -/
theorem update_eq_moved (engine : EngineSettings ℝ) (body : RigidBody3D ℝ) (type : IntegrationType)
    (hstatic : body.isStatic = false) (hawake : body.isAtRest = false) (htype : type ≠ .SEMI_IMPLICIT_EULER) :
    (body.update { engine with integrationType := type }).linearVelocity = body.newLinearVelocity engine ∧
      ∃ position, body.update { engine with integrationType := type } =
        (body.moved engine).placedAt position (body.turnedBy engine (body.turningVelocity engine type)) := by
  have hupdate : ∃ position, body.update { engine with integrationType := type } =
      (body.moved engine).placedAt position (body.turnedBy engine (body.turningVelocity engine type)) := by
    cases type with
    | EXPLICIT_EULER => exact update_explicitEuler _ body hstatic hawake rfl
    | SEMI_IMPLICIT_EULER => exact absurd rfl htype
    | RUNGE_KUTTA_2 => exact update_rungeKutta _ body hstatic hawake (.inl rfl)
    | RUNGE_KUTTA_4 => exact update_rungeKutta _ body hstatic hawake (.inr rfl)
  obtain ⟨position, hposition⟩ := hupdate
  refine ⟨?_, position, hposition⟩
  rw [hposition, placedAt_linearVelocity, moved_linearVelocity]

/-- Something of mass one that is pushed and twisted. -/
noncomputable def crate : RigidBody3D ℝ where
  position := 0
  orientation := ⟨1, 0, 0, 0⟩
  linearVelocity := 0
  force := ⟨1, 0, 0⟩
  invMass := 1
  angularVelocity := 0
  torque := ⟨1, 0, 0⟩
  invInertia := .diagonal 1 1 1
  collisionShape := none
  isStatic := false
  isAtRest := false
  elasticity := 1
  friction := 1
  isTrigger := false
  restVelocityThresholdSquared := 0
  averageSummedVelocity := 0
  wsTransform := ⟨.scaling ⟨1, 1, 1⟩, true⟩
  localBoundingBox := .cleared
  wsAabb := ⟨.cleared, true⟩

/-- One second in which things fall. -/
noncomputable def oneSecond (type : IntegrationType) : EngineSettings ℝ := ⟨1, ⟨0, -1, 0⟩, 1, type⟩

theorem update_crate : (crate.update (oneSecond .RUNGE_KUTTA_4)).linearVelocity = ⟨1, -1, 0⟩ := by
  have hupdate := (update_eq_moved (oneSecond .EXPLICIT_EULER) crate .RUNGE_KUTTA_4 rfl rfl (by decide)).1
  have hgravity : crate.feltGravity (oneSecond .EXPLICIT_EULER) = ⟨0, -1, 0⟩ :=
    if_pos ((lt_real 0 1).mpr one_pos)
  refine hupdate.trans ?_
  rw [newLinearVelocity, hgravity]
  ext <;> norm_num [crate, oneSecond]

/-- Normalising does not turn a part around. -/
theorem normalize_x (q : Maths.Quaternion ℝ) : ∃ c, 0 < c ∧ q.normalize.x = q.x * c := by
  unfold Quaternion.normalize
  split
  · next h =>
    have hpos : 0 < q.lengthSquared := (lt_real _ _).mp (Bool.and_eq_true_iff.mp h).2
    exact ⟨1 / Real.sqrt q.lengthSquared, one_div_pos.mpr (Real.sqrt_pos.mpr hpos), rfl⟩
  · exact ⟨1, one_pos, (mul_one q.x).symm⟩

theorem turnedBy_x (velocity : Vector3 ℝ) : ∃ c, 0 < c ∧
    (crate.turnedBy (oneSecond .EXPLICIT_EULER) velocity).x = velocity.x / 2 * c := by
  obtain ⟨c, hc, hx⟩ := normalize_x (crate.orientation +
    Quaternion.turn (velocity * (1 : ℝ) * (literal (1 / 2) : ℝ)) crate.orientation)
  refine ⟨c, hc, hx.trans (congrArg (· * c) ?_)⟩
  change (0 : ℝ) + (1 * (velocity.x * 1 * ((1 / 2 : ℚ) : ℝ)) + velocity.y * 1 * ((1 / 2 : ℚ) : ℝ) * 0 -
    velocity.z * 1 * ((1 / 2 : ℚ) : ℝ) * 0) = velocity.x / 2
  push_cast
  ring

/-- What has no mass does not fall, explicit Euler does not turn what starts to turn, and
semi-implicit Euler does not push. -/
theorem crates_differ :
    ({ crate with invMass := 0 }.update (oneSecond .EXPLICIT_EULER)).linearVelocity ≠ ⟨0, -1, 0⟩ ∧
    (crate.update (oneSecond .EXPLICIT_EULER)).orientation ≠ (crate.update (oneSecond .RUNGE_KUTTA_2)).orientation ∧
    (crate.update (oneSecond .SEMI_IMPLICIT_EULER)).linearVelocity ≠ ⟨1, -1, 0⟩ := by
  refine ⟨?_, ?_, ?_⟩
  · obtain ⟨position, hupdate⟩ := update_explicitEuler (oneSecond .EXPLICIT_EULER) { crate with invMass := 0 }
      rfl rfl rfl
    have hgravity : { crate with invMass := 0 }.feltGravity (oneSecond .EXPLICIT_EULER) = 0 :=
      if_neg fun h => lt_irrefl 0 ((lt_real 0 0).mp h)
    rw [hupdate, placedAt_linearVelocity, moved_linearVelocity, newLinearVelocity, hgravity]
    intro h
    have hy := congrArg Vector3.y h
    norm_num [crate, oneSecond] at hy
  · obtain ⟨position, hexplicit⟩ := update_explicitEuler (oneSecond .EXPLICIT_EULER) crate rfl rfl rfl
    obtain ⟨position', hrunge⟩ := update_rungeKutta (oneSecond .RUNGE_KUTTA_2) crate rfl rfl (.inl rfl)
    rw [hexplicit, hrunge]
    intro h
    obtain ⟨c, hc, hx⟩ := turnedBy_x 0
    obtain ⟨c', hc', hx'⟩ := turnedBy_x (crate.newAngularVelocity (oneSecond .EXPLICIT_EULER))
    have hvelocity : (crate.newAngularVelocity (oneSecond .EXPLICIT_EULER)).x = 1 := by
      norm_num [newAngularVelocity, crate, oneSecond, Matrix3.apply, Matrix3.diagonal]
    have hsame : (crate.turnedBy (oneSecond .EXPLICIT_EULER) 0).x =
        (crate.turnedBy (oneSecond .EXPLICIT_EULER) (crate.newAngularVelocity (oneSecond .EXPLICIT_EULER))).x :=
      congrArg Maths.Quaternion.x h
    rw [hx, hx', hvelocity, Vector3.zero_x] at hsame
    linarith
  · rw [update_semiImplicitEuler _ crate rfl rfl rfl]
    have hgravity : crate.feltGravity (oneSecond .SEMI_IMPLICIT_EULER) = ⟨0, -1, 0⟩ :=
      if_pos ((lt_real 0 1).mpr one_pos)
    intro h
    have hx := congrArg Vector3.x h
    rw [hgravity] at hx
    norm_num [newLinearVelocity, crate, oneSecond, feltGravity] at hx

end RigidBody3D

end Lumos.Physics.Dynamics
