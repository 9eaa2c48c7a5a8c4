import Lumos.Library.Runs
import Lumos.Physics.RigidBodyUpdate

/-!
# The cached transform and box of a body

Two operations can leave a cache behind that counts and is wrong: `SetOrientation` does not
say that the box is out of date, and `load` does not say so of the transform.
-/
namespace Lumos.Physics.Dynamics

open Maths FloatArithmetic LazyCache

variable {K : Type} [FloatInfinity K]

inductive BodyCall (K : Type) where
  | setPosition (v : Vector3 K)
  | setOrientation (v : Maths.Quaternion K)
  | setLocalBoundingBox (bb : BoundingBox K)
  | setLinearVelocity (v : Vector3 K)
  | setForce (v : Vector3 K)
  | setAngularVelocity (v : Vector3 K)
  | setTorque (v : Vector3 K)
  | setInverseInertia (v : Matrix3 K)
  | setInverseMass (v : K)
  | setMass (v : K)
  | setIsAtRest (isAtRest : Bool)
  | wakeUp
  | setIsStatic (isStatic : Bool)
  | setElasticity (elasticity : K)
  | setFriction (friction : K)
  | setIsTrigger (trigger : Bool)
  | setRestVelocityThreshold (vel : K)
  | fireOnCollisionEvent (handleCollision : Bool)
  | setCollisionShape (shape : BodyShape K)
  | setCollisionShapeType (type : Nat)
  | collisionShapeUpdated
  | autoResizeBoundingBox
  | load (properties : RigidBody3DProperties K) (trigger : Bool)
  | restTest
  | update (engine : EngineSettings K)
  | getWorldSpaceTransform
  | getWorldSpaceAABB

namespace RigidBody3D

def perform (body : RigidBody3D K) : BodyCall K → RigidBody3D K
  | .setPosition v => body.setPosition v
  | .setOrientation v => body.setOrientation v
  | .setLocalBoundingBox bb => body.setLocalBoundingBox bb
  | .setLinearVelocity v => body.setLinearVelocity v
  | .setForce v => body.setForce v
  | .setAngularVelocity v => body.setAngularVelocity v
  | .setTorque v => body.setTorque v
  | .setInverseInertia v => body.setInverseInertia v
  | .setInverseMass v => body.setInverseMass v
  | .setMass v => body.setMass v
  | .setIsAtRest isAtRest => body.setIsAtRest isAtRest
  | .wakeUp => body.wakeUp
  | .setIsStatic isStatic => body.setIsStatic isStatic
  | .setElasticity elasticity => body.setElasticity elasticity
  | .setFriction friction => body.setFriction friction
  | .setIsTrigger trigger => body.setIsTrigger trigger
  | .setRestVelocityThreshold vel => body.setRestVelocityThreshold vel
  | .fireOnCollisionEvent handleCollision => body.fireOnCollisionEvent handleCollision
  | .setCollisionShape shape => body.setCollisionShape shape
  | .setCollisionShapeType type => body.setCollisionShapeType type
  | .collisionShapeUpdated => body.collisionShapeUpdated
  | .autoResizeBoundingBox => body.autoResizeBoundingBox
  | .load properties trigger => body.load properties trigger
  | .restTest => body.restTest
  | .update engine => body.update engine
  | .getWorldSpaceTransform => body.getWorldSpaceTransform.2
  | .getWorldSpaceAABB => body.getWorldSpaceAABB.2

/-- `SetMass` asserts that the mass is positive. -/
def calls : Runs.System (RigidBody3D K) (BodyCall K) where
  inScope := fun _ call => ∀ v, call = .setMass v → lt 0 v = true
  perform := fun body call => some (body.perform call)

/-- Asked now, both getters answer with what is recomputed. -/
def Current (body : RigidBody3D K) : Prop :=
  body.getWorldSpaceTransform.1 = body.worldSpaceTransform ∧ body.getWorldSpaceAABB.1 = body.worldSpaceAABB

/-- An operation that does not say so does not change what is cached. -/
def Announced (body : RigidBody3D K) : BodyCall K → Prop
  | .setOrientation v => body.wsAabb.dirty = true ∨ body.worldSpaceAABB = (body.setOrientation v).worldSpaceAABB
  | .load properties trigger =>
    body.wsTransform.dirty = true ∨ body.worldSpaceTransform = (body.load properties trigger).worldSpaceTransform
  | _ => True

/-! ## Coherence -/

/-- Both caches hold what is recomputed, if they count. -/
structure Coherent (body : RigidBody3D K) : Prop where
  transform : body.wsTransform.Coherent body.worldSpaceTransform
  aabb : body.wsAabb.Coherent body.worldSpaceAABB

theorem getWorldSpaceAABB_fst {body : RigidBody3D K} (h : body.wsTransform.Coherent body.worldSpaceTransform) :
    body.getWorldSpaceAABB.1 = (body.wsAabb.refresh body.worldSpaceAABB).value := by
  have htransform : body.getWorldSpaceTransform.1 = body.worldSpaceTransform :=
    (Cached.refresh_value_iff _ _).mpr h
  cases hdirty : body.wsAabb.dirty with
  | true =>
    simp only [getWorldSpaceAABB, hdirty, if_true, Cached.refresh_of_dirty, worldSpaceAABB]
    rw [htransform]
    rfl
  | false => simp [getWorldSpaceAABB, hdirty, Cached.refresh_of_clean]

theorem current_iff_coherent (body : RigidBody3D K) : body.Current ↔ body.Coherent := by
  constructor
  · intro h
    have htransform := (Cached.refresh_value_iff _ _).mp h.1
    have haabb := h.2
    rw [getWorldSpaceAABB_fst htransform] at haabb
    exact ⟨htransform, (Cached.refresh_value_iff _ _).mp haabb⟩
  · intro h
    constructor
    · exact (Cached.refresh_value_iff _ _).mpr h.transform
    · rw [getWorldSpaceAABB_fst h.transform]
      exact (Cached.refresh_value_iff _ _).mpr h.aabb

/-! ## What operations leave of the caches -/

/-- The caches and what they depend on. -/
def cacheView (body : RigidBody3D K) :
    CollisionDetection.Pose K × BoundingBox K × Cached (Matrix4 K) × Cached (BoundingBox K) :=
  (body.toPose, body.localBoundingBox, body.wsTransform, body.wsAabb)

/-- The operation leaves the caches and what they depend on as they are. -/
theorem Coherent.of_cacheView {body body' : RigidBody3D K} (h : body.Coherent)
    (hview : body'.cacheView = body.cacheView) : body'.Coherent := by
  simp only [cacheView, Prod.mk.injEq] at hview
  obtain ⟨hpose, hbox, htransform, haabb⟩ := hview
  have hworld : body'.worldSpaceTransform = body.worldSpaceTransform := by rw [hpose]
  have hworldBox : body'.worldSpaceAABB = body.worldSpaceAABB := by
    rw [worldSpaceAABB, worldSpaceAABB, hbox, hworld]
  constructor
  · rw [htransform, hworld]
    exact h.transform
  · rw [haabb, hworldBox]
    exact h.aabb

/-- The operation says that the box is out of date and leaves the pose and the transform. -/
theorem Coherent.of_resized {body body' : RigidBody3D K} (h : body.Coherent)
    (hpose : body'.toPose = body.toPose) (htransform : body'.wsTransform = body.wsTransform)
    (haabb : body'.wsAabb.dirty = true) : body'.Coherent := by
  constructor
  · rw [htransform, hpose]
    exact h.transform
  · exact Cached.coherent_of_dirty haabb _

theorem coherent_of_dirty {body : RigidBody3D K} (htransform : body.wsTransform.dirty = true)
    (haabb : body.wsAabb.dirty = true) : body.Coherent :=
  ⟨Cached.coherent_of_dirty htransform _, Cached.coherent_of_dirty haabb _⟩

theorem cacheView_updateInverseInertia (body : RigidBody3D K) :
    body.updateInverseInertia.cacheView = body.cacheView := by
  unfold updateInverseInertia
  split <;> rfl

theorem cacheView_restTest (body : RigidBody3D K) : body.restTest.cacheView = body.cacheView := by
  unfold restTest
  split <;> rfl

theorem Coherent.autoResizeBoundingBox {body : RigidBody3D K} (h : body.Coherent) :
    body.autoResizeBoundingBox.Coherent := h.of_resized rfl rfl rfl

theorem Coherent.setCollisionShape {body : RigidBody3D K} (h : body.Coherent) (shape : BodyShape K) :
    (body.setCollisionShape shape).Coherent := h.of_resized rfl rfl rfl

theorem Coherent.update {body : RigidBody3D K} (h : body.Coherent) (engine : EngineSettings K) :
    (body.update engine).Coherent := by
  unfold RigidBody3D.update
  split
  · exact (coherent_of_dirty rfl rfl).of_cacheView (cacheView_restTest _)
  · exact h

theorem Coherent.getWorldSpaceTransform {body : RigidBody3D K} (h : body.Coherent) :
    body.getWorldSpaceTransform.2.Coherent := ⟨Cached.coherent_refresh h.transform, h.aabb⟩

theorem Coherent.getWorldSpaceAABB {body : RigidBody3D K} (h : body.Coherent) :
    body.getWorldSpaceAABB.2.Coherent := by
  cases hdirty : body.wsAabb.dirty with
  | true =>
    have htransform : body.getWorldSpaceTransform.1 = body.worldSpaceTransform :=
      (Cached.refresh_value_iff _ _).mpr h.transform
    simp only [RigidBody3D.getWorldSpaceAABB, hdirty, if_true]
    constructor
    · exact h.getWorldSpaceTransform.transform
    · intro _
      exact congrArg body.localBoundingBox.transformed htransform
  | false =>
    simp only [RigidBody3D.getWorldSpaceAABB, hdirty, Bool.false_eq_true, if_false]
    exact h

/-! ## The two operations that say too little -/

theorem Coherent.setOrientation_iff {body : RigidBody3D K} (h : body.Coherent) (v : Maths.Quaternion K) :
    (body.setOrientation v).Coherent ↔ body.Announced (.setOrientation v) := by
  have haabb : body.wsAabb.Coherent (body.setOrientation v).worldSpaceAABB ↔ body.Announced (.setOrientation v) :=
    Cached.coherent_change_iff h.aabb
  constructor
  · intro hafter
    exact haabb.mp hafter.aabb
  · intro hannounced
    exact ⟨Cached.coherent_of_dirty rfl _, haabb.mpr hannounced⟩

theorem load_wsTransform (body : RigidBody3D K) (properties : RigidBody3DProperties K) (trigger : Bool) :
    (body.load properties trigger).wsTransform = body.wsTransform := by
  unfold load collisionShapeUpdated updateInverseInertia
  cases properties.shape <;> rfl

theorem Coherent.load_iff {body : RigidBody3D K} (h : body.Coherent) (properties : RigidBody3DProperties K)
    (trigger : Bool) : (body.load properties trigger).Coherent ↔ body.Announced (.load properties trigger) := by
  have htransform : body.wsTransform.Coherent (body.load properties trigger).worldSpaceTransform ↔
      body.Announced (.load properties trigger) := Cached.coherent_change_iff h.transform
  rw [← load_wsTransform body properties trigger] at htransform
  constructor
  · intro hafter
    exact htransform.mp hafter.transform
  · intro hannounced
    exact ⟨htransform.mpr hannounced, Cached.coherent_of_dirty rfl _⟩

/-! ## Runs -/

omit [FloatInfinity K] in
theorem cacheView_ite {c : Prop} [Decidable c] {body a b : RigidBody3D K} (ha : a.cacheView = body.cacheView)
    (hb : b.cacheView = body.cacheView) : (if c then a else b).cacheView = body.cacheView := by
  split
  · exact ha
  · exact hb

/-- An operation that says what it changes leaves the caches coherent. -/
theorem Coherent.perform {body : RigidBody3D K} (h : body.Coherent) {call : BodyCall K}
    (hannounced : body.Announced call) : (body.perform call).Coherent := by
  cases call with
  | setOrientation v => exact (h.setOrientation_iff v).mpr hannounced
  | load properties trigger => exact (h.load_iff properties trigger).mpr hannounced
  | setPosition v => exact coherent_of_dirty rfl rfl
  | setLocalBoundingBox bb => exact h.of_resized rfl rfl rfl
  | autoResizeBoundingBox => exact h.autoResizeBoundingBox
  | collisionShapeUpdated => exact (h.of_cacheView (cacheView_updateInverseInertia body)).autoResizeBoundingBox
  | setCollisionShape shape => exact h.setCollisionShape shape
  | setCollisionShapeType type =>
    simp only [RigidBody3D.perform, setCollisionShapeType]
    split
    · exact h.setCollisionShape _
    · exact h
  | setInverseMass v => exact h.of_cacheView (cacheView_updateInverseInertia _)
  | setMass v => exact h.of_cacheView (cacheView_updateInverseInertia _)
  | restTest => exact h.of_cacheView (cacheView_restTest body)
  | update engine => exact h.update engine
  | getWorldSpaceTransform => exact h.getWorldSpaceTransform
  | getWorldSpaceAABB => exact h.getWorldSpaceAABB
  | setLinearVelocity v => exact h.of_cacheView (cacheView_ite rfl rfl)
  | setForce v => exact h.of_cacheView (cacheView_ite rfl rfl)
  | setAngularVelocity v => exact h.of_cacheView (cacheView_ite rfl rfl)
  | setTorque v => exact h.of_cacheView (cacheView_ite rfl rfl)
  | fireOnCollisionEvent handleCollision => exact h.of_cacheView (cacheView_ite rfl rfl)
  | _ => exact h.of_cacheView rfl

theorem Coherent.not_perform {body : RigidBody3D K} (h : body.Coherent) {call : BodyCall K}
    (hannounced : ¬ body.Announced call) : ¬ (body.perform call).Coherent := by
  cases call with
  | setOrientation v => exact fun hafter => hannounced ((h.setOrientation_iff v).mp hafter)
  | load properties trigger => exact fun hafter => hannounced ((h.load_iff properties trigger).mp hafter)
  | _ => exact absurd trivial hannounced

theorem coherent_create (properties : RigidBody3DProperties K) : (create properties).Coherent := by
  unfold create
  split <;> exact coherent_of_dirty rfl rfl

/-- In every state that a sequence of operations on a new body passes through both getters
answer with what is recomputed, exactly when every operation says what it changes. -/
theorem always_current_iff (properties : RigidBody3DProperties K) (operations : List (BodyCall K)) :
    calls.Always Current (create properties) operations ↔
      calls.Throughout Announced (create properties) operations := by
  apply Runs.System.always_iff_throughout (I := Coherent)
  · intro body h
    exact (current_iff_coherent body).mpr h
  · intro body call h _ hannounced
    exact ⟨body.perform call, rfl, h.perform hannounced⟩
  · intro body call h _ hannounced after hafter
    cases hafter
    rw [current_iff_coherent]
    exact h.not_perform hannounced
  · exact coherent_create properties

/-- A body whose box has been asked for turns about an axis: its box stays that of the old
orientation. -/
theorem getWorldSpaceAABB_after_setOrientation :
    let properties : RigidBody3DProperties ℚ :=
      ⟨0, 0, 0, 1, ⟨1, 0, 0, 0⟩, 0, 0, false, 9 / 10, 4 / 5, false, none⟩
    let turn : BodyCall ℚ := .setOrientation ⟨4 / 5, 0, 0, 3 / 5⟩
    let body := ((create properties).perform .getWorldSpaceAABB).perform turn
    body.getWorldSpaceAABB.1.max.x = 1 / 2 ∧ body.worldSpaceAABB.max.x = 31 / 50 ∧
      ¬ calls.Always Current (create properties) [.getWorldSpaceAABB, turn] := by
  intro properties turn body
  have hold : body.getWorldSpaceAABB.1.max.x = 1 / 2 := by decide +kernel
  have hnew : body.worldSpaceAABB.max.x = 31 / 50 := by decide +kernel
  refine ⟨hold, hnew, ?_⟩
  intro halways
  obtain ⟨_, hfirst, _, halways⟩ := halways.2 (fun _ h => by cases h)
  cases hfirst
  obtain ⟨_, hsecond, hcurrent⟩ := halways (fun _ h => absurd h (by simp [turn]))
  cases hsecond
  have hsame : body.getWorldSpaceAABB.1.max.x = body.worldSpaceAABB.max.x :=
    congrArg (fun box => box.max.x) hcurrent.2
  rw [hold, hnew] at hsame
  exact absurd hsame (by decide +kernel)

end RigidBody3D

end Lumos.Physics.Dynamics
