import Lumos.Library.FixedStep
import Lumos.Physics.CollisionDetection
import Lumos.Physics.MomentumConservation
import Lumos.Physics.NarrowPhase
import Lumos.Physics.RigidBodyUpdate
import Lumos.Physics.WeldConstraint

/-!
# `UpdatePhysics` and `OnUpdate`

An update of the engine finds collisions, solves what holds the bodies together and apart, and
moves the bodies. A frame makes one update that takes as long as the frame, or updates of one
length for the time that has passed.
-/
namespace Lumos.Physics.Dynamics

open Maths FloatArithmetic LazyCache CollisionDetection

variable {K : Type} {n : Nat}

/-! ## All constraints -/

inductive Axes where
  | X | Y | Z | XY | XZ | YZ | XYZ
  deriving DecidableEq, Repr

structure AxisConstraint (n : Nat) where
  obj1 : Fin n
  axes : Axes

/-- What `m_Constraints` points to. -/
inductive EngineConstraint (n : Nat) (K : Type) where
  | pair (constraint : Constraint n K)
  | axis (constraint : AxisConstraint n)
  | weld (constraint : WeldConstraint n K)

variable [FloatInfinity K]

/-- Two components go before it is asked which. -/
def AxisConstraint.applyImpulse (c : AxisConstraint n) (bodies : Fin n → RigidBody3D K) : Fin n → RigidBody3D K :=
  let velocity := { (bodies c.obj1).angularVelocity with x := 0, z := 0 }
  let velocity :=
    match c.axes with
    | .X => { velocity with x := 0 }
    | .Y => { velocity with y := 0 }
    | .Z => { velocity with z := 0 }
    | .XZ => { velocity with x := 0, z := 0 }
    | .XY => { velocity with x := 0, y := 0 }
    | .YZ => { velocity with y := 0, z := 0 }
    | .XYZ => { velocity with x := 0, y := 0, z := 0 }
  Function.update bodies c.obj1 ((bodies c.obj1).setAngularVelocity velocity)

section Solver

variable (deltaTime : K)

def EngineConstraint.applyImpulse (bodies : Fin n → RigidBody3D K) : EngineConstraint n K → Fin n → RigidBody3D K
  | .pair constraint => constraint.applyImpulse deltaTime bodies
  | .axis constraint => constraint.applyImpulse bodies
  | .weld constraint => constraint.applyImpulse bodies

/-- A turn of the solver's loop. -/
def applyAllImpulses (constraints : List (EngineConstraint n K)) (s : SolverState n K) : SolverState n K :=
  let (bodies, manifolds) := Exchange.thread (Manifold.applyImpulse deltaTime) s.bodies s.manifolds
  ⟨constraints.foldl (EngineConstraint.applyImpulse deltaTime) bodies, manifolds⟩

/-- `SolveConstraints`, with every kind of constraint. -/
def solveAllConstraints (constraints : List (EngineConstraint n K)) (s : SolverState n K) : SolverState n K :=
  (applyAllImpulses deltaTime constraints)^[solverIterations] (preSolverSteps s)

/-- Between pairs of bodies it is `solveConstraints`. -/
theorem solveAllConstraints_pair (constraints : List (Constraint n K)) (s : SolverState n K) :
    solveAllConstraints deltaTime (constraints.map .pair) s = solveConstraints deltaTime constraints s := by
  have hturn : applyAllImpulses (n := n) deltaTime (constraints.map .pair) = applyImpulses deltaTime constraints := by
    funext s
    simp only [applyAllImpulses, List.foldl_map]
    rfl
  rw [solveAllConstraints, hturn, solveConstraints]

end Solver

/-! ## The collision phases -/

/-- The bodies, and everything else there is in the scene: what the shapes cache, what callbacks write. -/
structure World (n : Nat) (K σ : Type) where
  bodies : Fin n → RigidBody3D K
  others : σ

/-- What each body caches. -/
abbrev BodyCaches (n : Nat) (K : Type) := Fin n → Cached (Matrix4 K) × Cached (BoundingBox K)

/-- What the phases find out about the bodies. Whatever they ask may be cached, and be answered from all there is. -/
structure Collider (n : Nat) (K σ : Type) where
  findPotentialCollisionPairs : World n K σ → List (CollisionPair (Fin n)) × BodyCaches n K × σ
  checkCollision : Fin n → Fin n → World n K σ → Option (CollisionData K) × BodyCaches n K × σ
  onCollisionCallback : World n K σ → Fin n → Option (Fin n → Fin n → World n K σ → Bool × σ)
  buildCollisionManifold : Fin n → Fin n → CollisionData K → World n K σ → Option (Manifold n K) × BodyCaches n K × σ
  onCollisionManifoldCallbacks : World n K σ → Fin n → List (Fin n → Fin n → World n K σ → σ)

/-- Beside the world `colData` and `m_Manifolds`. -/
structure CollisionPhases (n : Nat) (K σ : Type) extends World n K σ where
  colData : CollisionData K
  manifolds : List (Manifold n K)

namespace Collider

variable {σ : Type} (collider : Collider n K σ)

def withCaches (bodies : Fin n → RigidBody3D K) (caches : BodyCaches n K) : Fin n → RigidBody3D K :=
  fun i => { bodies i with wsTransform := (caches i).1, wsAabb := (caches i).2 }

def handlers : CollisionHandlers (Fin n) (CollisionPhases n K σ) where
  hasCollisionShape s i := (s.bodies i).collisionShape.isSome
  checkCollision a b s :=
    let (found, caches, others) := collider.checkCollision a b s.toWorld
    (found.isSome, { s with bodies := withCaches s.bodies caches, others, colData := found.getD s.colData })
  onCollisionCallback s i := (collider.onCollisionCallback s.toWorld i).map fun callback a b s =>
    let (handleCollision, others) := callback a b s.toWorld
    (handleCollision, { s with others })
  wakeUp i s := { s with bodies := Function.update s.bodies i (s.bodies i).wakeUp }
  buildCollisionManifold a b s :=
    let (built, caches, others) := collider.buildCollisionManifold a b s.colData s.toWorld
    (built.isSome, { s with bodies := withCaches s.bodies caches, others, manifolds := s.manifolds ++ built.toList })
  onCollisionManifoldCallbacks s i := (collider.onCollisionManifoldCallbacks s.toWorld i).map fun callback a b s =>
    { s with others := callback a b s.toWorld }

/-- `BroadPhaseCollisions` and `NarrowPhaseCollisions`. What is in `colData` is only read behind a check that has
found a collision. -/
def collide (world : World n K σ) : CollisionPhases n K σ :=
  let (collisionPairs, caches, others) := collider.findPotentialCollisionPairs world
  (collider.handlers.narrowPhaseCollisions collisionPairs
    ⟨⟨⟨withCaches world.bodies caches, others⟩, ⟨0, 0, 0⟩, []⟩, [], []⟩).scene

end Collider

/-! ## The engine -/

section Updates

variable {σ : Type} (collider : Collider n K σ) (constraints : List (EngineConstraint n K))

def updatePhysics (engine : EngineSettings K) (world : World n K σ) : World n K σ :=
  let found := collider.collide world
  let s := solveAllConstraints engine.updateTimestep constraints ⟨found.bodies, found.manifolds⟩
  ⟨fun i => (s.bodies i).update engine, found.others⟩

theorem updatePhysics_bodies (engine : EngineSettings K) (world : World n K σ) :
    (updatePhysics collider constraints engine world).bodies = fun i =>
      ((solveAllConstraints engine.updateTimestep constraints
        ⟨(collider.collide world).bodies, (collider.collide world).manifolds⟩).bodies i).update engine := by
  simp only [updatePhysics]

structure LumosPhysicsEngine (K : Type) extends EngineSettings K where
  isPaused : Bool
  updateAccum : K
  multipleUpdates : Bool

/-- `max_updates_per_frame` -/
def maxUpdatesPerFrame : Nat := 5

/-- `OnUpdate`, with the bodies and the constraints of the scene. -/
def LumosPhysicsEngine.onUpdate (seconds : K) (engine : LumosPhysicsEngine K) (world : World n K σ) :
    LumosPhysicsEngine K × World n K σ :=
  if engine.isPaused || n == 0 then (engine, world)
  else if engine.multipleUpdates then
    let updated := FixedStep.frame (le engine.updateTimestep ·) (· - engine.updateTimestep)
      (updatePhysics collider constraints engine.toEngineSettings) 0 maxUpdatesPerFrame (engine.updateAccum + seconds)
      world
    ({ engine with updateAccum := updated.1 }, updated.2)
  else
    let engine := { engine with updateTimestep := seconds }
    (engine, updatePhysics collider constraints engine.toEngineSettings world)

end Updates

/-! ## What the collision phases write -/

/-- Nothing of a body but whether it is at rest and what it caches. -/
def Touched (bodies now : Fin n → RigidBody3D K) : Prop :=
  ∀ i, ∃ isAtRest wsTransform wsAabb, now i = { bodies i with isAtRest, wsTransform, wsAabb }

section Touched

variable {σ : Type} (collider : Collider n K σ) {bodies now : Fin n → RigidBody3D K}

omit [FloatInfinity K] in
theorem Touched.withCaches (h : Touched bodies now) (caches : BodyCaches n K) :
    Touched bodies (Collider.withCaches now caches) := by
  intro i
  obtain ⟨isAtRest, _, _, hnow⟩ := h i
  exact ⟨isAtRest, (caches i).1, (caches i).2, by rw [Collider.withCaches, hnow]⟩

omit [FloatInfinity K] in
theorem Touched.wakeUp (h : Touched bodies now) (k : Fin n) : Touched bodies (Function.update now k (now k).wakeUp) := by
  intro i
  by_cases hi : i = k
  · subst hi
    obtain ⟨_, wsTransform, wsAabb, hnow⟩ := h i
    exact ⟨false, wsTransform, wsAabb, by rw [Function.update_self, hnow]; rfl⟩
  · rw [Function.update_of_ne hi]
    exact h i

omit [FloatInfinity K] in
theorem keep_touched : collider.handlers.Keep fun s => Touched bodies s.bodies where
  checkCollision _ _ _ h := h.withCaches _
  onCollisionCallback s body callback hcallback a b s' h := by
    obtain ⟨_, -, rfl⟩ := Option.map_eq_some_iff.mp hcallback
    exact h
  wakeUp body _ h := h.wakeUp body
  buildCollisionManifold _ _ _ h := h.withCaches _
  onCollisionManifoldCallbacks s body callback hcallback a b s' h := by
    obtain ⟨_, -, rfl⟩ := List.mem_map.mp hcallback
    exact h

theorem touched_collide (world : World n K σ) : Touched world.bodies (collider.collide world).bodies := by
  have hstart : Touched world.bodies world.bodies := fun i => ⟨_, _, _, rfl⟩
  exact (keep_touched collider).narrowPhaseCollisions _ (hstart.withCaches _)

end Touched

/-! ## What the solver keeps -/

/-- Impulses between two bodies keep it, and so do those constraints that are none. -/
structure Kept (constraints : List (EngineConstraint n K)) (P : (Fin n → RigidBody3D K) → Prop) : Prop where
  pair : ∀ {bodies} a b r1 r2 direction j, P bodies → P (applyImpulsePair bodies a b r1 r2 direction j)
  axis : ∀ {bodies} c, .axis c ∈ constraints → P bodies → P (c.applyImpulse bodies)
  weld : ∀ {bodies} c, .weld c ∈ constraints → P bodies → P (c.applyImpulse bodies)

section Kept

variable {constraints : List (EngineConstraint n K)} {P : (Fin n → RigidBody3D K) → Prop}
  {bodies : Fin n → RigidBody3D K} (hP : Kept constraints P) (deltaTime : K)

include hP

theorem Kept.solveContactPoint (a b : Fin n) (h : P bodies) (c : ContactPoint K) :
    P (solveContactPoint deltaTime a b bodies c).1 := by
  unfold Dynamics.solveContactPoint
  split
  · exact h
  · dsimp only
    split
    · exact hP.pair a b _ _ _ _ (hP.pair a b _ _ _ _ h)
    · exact hP.pair a b _ _ _ _ h

theorem Kept.applyManifold (h : P bodies) (m : Manifold n K) : P (m.applyImpulse deltaTime bodies).1 :=
  Exchange.thread_preserves (P := P) _ (fun _ c h => hP.solveContactPoint deltaTime m.nodeA m.nodeB h c) m.contacts h

theorem Kept.applyConstraint (h : P bodies) (c : EngineConstraint n K) (hc : c ∈ constraints) :
    P (c.applyImpulse deltaTime bodies) := by
  cases c with
  | pair constraint =>
    cases constraint with
    | distance constraint =>
      simp only [EngineConstraint.applyImpulse, Constraint.applyImpulse, DistanceConstraint.applyImpulse]
      split
      · exact h
      · exact hP.pair constraint.obj1 constraint.obj2 _ _ _ _ h
    | spring constraint =>
      simp only [EngineConstraint.applyImpulse, Constraint.applyImpulse, SpringConstraint.applyImpulse]
      split
      · exact h
      · exact hP.pair constraint.obj1 constraint.obj2 _ _ _ _ h
  | axis constraint => exact hP.axis constraint hc h
  | weld constraint => exact hP.weld constraint hc h

theorem Kept.applyAllImpulses {s : SolverState n K} (h : P s.bodies) :
    P (applyAllImpulses deltaTime constraints s).bodies := by
  have hmanifolds : P (Exchange.thread (Manifold.applyImpulse deltaTime) s.bodies s.manifolds).1 :=
    Exchange.thread_preserves (P := P) _ (fun _ m h => hP.applyManifold deltaTime h m) s.manifolds h
  exact List.foldlRecOn constraints _ hmanifolds fun _ h c hc => hP.applyConstraint deltaTime h c hc

theorem Kept.iterations (iterations : Nat) {s : SolverState n K} (h : P s.bodies) :
    P ((Dynamics.applyAllImpulses deltaTime constraints)^[iterations] s).bodies := by
  induction iterations generalizing s with
  | zero => exact h
  | succ iterations ih => exact ih (hP.applyAllImpulses deltaTime h)

theorem Kept.solveAllConstraints {s : SolverState n K} (h : P s.bodies) :
    P (solveAllConstraints deltaTime constraints s).bodies :=
  hP.iterations deltaTime solverIterations h

/-- An update keeps what the collision phases, the solver and the moving of the bodies keep. -/
theorem Kept.updatePhysics {σ : Type} (collider : Collider n K σ) {engine : EngineSettings K}
    (htouched : ∀ bodies now, Touched bodies now → P bodies → P now)
    (hupdate : ∀ bodies, P bodies → P fun i => (bodies i).update engine) {world : World n K σ} (h : P world.bodies) :
    P (updatePhysics collider constraints engine world).bodies := by
  have hfound : P (collider.collide world).bodies := htouched _ _ (touched_collide collider world) h
  have hsolved : P (Dynamics.solveAllConstraints engine.updateTimestep constraints
      ⟨(collider.collide world).bodies, (collider.collide world).manifolds⟩).bodies :=
    hP.solveAllConstraints engine.updateTimestep hfound
  rw [updatePhysics_bodies]
  exact hupdate _ hsolved

end Kept

/-! ## Runs of frames -/

/-- A frame of the game: how long it takes, whether the engine is paused, and the constraints there are. -/
structure Frame (n : Nat) (K : Type) where
  seconds : K
  isPaused : Bool
  constraints : List (EngineConstraint n K)

namespace LumosPhysicsEngine

variable {σ : Type} (collider : Collider n K σ) {frames : List (Frame n K)} {P : (Fin n → RigidBody3D K) → Prop}

def runFrame (s : LumosPhysicsEngine K × World n K σ) (frame : Frame n K) : LumosPhysicsEngine K × World n K σ :=
  onUpdate collider frame.constraints frame.seconds { s.1 with isPaused := frame.isPaused } s.2

/-- All settings but the time an update takes. -/
structure SameForces (engine settings : EngineSettings K) : Prop where
  dampingFactor : settings.dampingFactor = engine.dampingFactor
  gravity : settings.gravity = engine.gravity
  integrationType : settings.integrationType = engine.integrationType

variable {collider} {engine : LumosPhysicsEngine K}

/-- A frame makes updates with these forces, or none. -/
theorem runFrame_preserves {s : LumosPhysicsEngine K × World n K σ} {frame : Frame n K}
    (hupdate : ∀ settings, SameForces engine.toEngineSettings settings → ∀ world : World n K σ, P world.bodies →
      P (updatePhysics collider frame.constraints settings world).bodies)
    (hengine : SameForces engine.toEngineSettings s.1.toEngineSettings) (h : P s.2.bodies) :
    SameForces engine.toEngineSettings (runFrame collider s frame).1.toEngineSettings ∧
      P (runFrame collider s frame).2.bodies := by
  simp only [runFrame, onUpdate]
  split
  · exact ⟨⟨hengine.1, hengine.2, hengine.3⟩, h⟩
  · split
    · have hstep := hupdate s.1.toEngineSettings hengine
      exact ⟨⟨hengine.1, hengine.2, hengine.3⟩, FixedStep.frame_preserves hstep 0 maxUpdatesPerFrame _ h⟩
    · have hsame : SameForces engine.toEngineSettings { s.1.toEngineSettings with updateTimestep := frame.seconds } :=
        ⟨hengine.1, hengine.2, hengine.3⟩
      have hstep := hupdate _ hsame s.2 h
      dsimp only
      exact ⟨hsame, hstep⟩

/-- What every update keeps is kept by all frames. -/
theorem runFrames_preserves (hupdate : ∀ frame ∈ frames, ∀ settings, SameForces engine.toEngineSettings settings →
      ∀ world : World n K σ, P world.bodies → P (updatePhysics collider frame.constraints settings world).bodies)
    {world : World n K σ} (h : P world.bodies) : P (frames.foldl (runFrame collider) (engine, world)).2.bodies := by
  have hrun : SameForces engine.toEngineSettings (frames.foldl (runFrame collider) (engine, world)).1.toEngineSettings ∧
      P (frames.foldl (runFrame collider) (engine, world)).2.bodies := by
    refine List.foldlRecOn (motive := fun s : LumosPhysicsEngine K × World n K σ =>
      SameForces engine.toEngineSettings s.1.toEngineSettings ∧ P s.2.bodies) frames _ ⟨⟨rfl, rfl, rfl⟩, h⟩ ?_
    intro s hs frame hframe
    exact runFrame_preserves (hupdate frame hframe) hs.1 hs.2
  exact hrun.2

end LumosPhysicsEngine

/-! ## Static bodies -/

section Static

/-- A static body as it was, but for its caches and whether it is at rest. -/
def Still (body now : RigidBody3D K) : Prop :=
  body.isStatic = true → ∃ isAtRest wsTransform wsAabb, now = { body with isAtRest, wsTransform, wsAabb }

variable {start bodies : Fin n → RigidBody3D K}

omit [FloatInfinity K] in
/-- Writing a body is fine where it changes nothing of a static one. -/
theorem still_update (h : ∀ i, Still (start i) (bodies i)) (k : Fin n) {body : RigidBody3D K}
    (hbody : (start k).isStatic = true → (bodies k).isStatic = true → body = bodies k) (i : Fin n) :
    Still (start i) (Function.update bodies k body i) := by
  by_cases hi : i = k
  · subst hi
    intro hstatic
    obtain ⟨isAtRest, wsTransform, wsAabb, hnow⟩ := h i hstatic
    have hstill : (bodies i).isStatic = true := by rw [hnow]; exact hstatic
    rw [Function.update_self, hbody hstatic hstill]
    exact ⟨isAtRest, wsTransform, wsAabb, hnow⟩
  · rw [Function.update_of_ne hi]
    exact h i

omit [FloatInfinity K] in
theorem still_setLinearVelocity (h : ∀ i, Still (start i) (bodies i)) (k : Fin n) (v : Vector3 K) :
    ∀ i, Still (start i) (Function.update bodies k ((bodies k).setLinearVelocity v) i) :=
  still_update h k fun _ hstatic => if_pos hstatic

omit [FloatInfinity K] in
theorem still_setAngularVelocity (h : ∀ i, Still (start i) (bodies i)) (k : Fin n) (v : Vector3 K) :
    ∀ i, Still (start i) (Function.update bodies k ((bodies k).setAngularVelocity v) i) :=
  still_update h k fun _ hstatic => if_pos hstatic

theorem kept_still {constraints : List (EngineConstraint n K)}
    (hweld : ∀ c, .weld c ∈ constraints → (start c.obj2).isStatic = false) :
    Kept constraints fun bodies => ∀ i, Still (start i) (bodies i) where
  pair a b r1 r2 direction j h :=
    still_setAngularVelocity (still_setAngularVelocity (still_setLinearVelocity (still_setLinearVelocity h a _) b _)
      a _) b _
  axis c _ h := still_setAngularVelocity h c.obj1 _
  weld c hc h := by
    have hmoving : ¬ (start c.obj2).isStatic = true := Bool.eq_false_iff.mp (hweld c hc)
    exact still_update (still_update h c.obj2 fun hstatic => absurd hstatic hmoving) c.obj2
      fun hstatic => absurd hstatic hmoving

/-- Finds two bodies in touch in each update, and counts them. -/
def alwaysTouching (a b : Fin 2) (contact : ContactPoint ℚ) : Collider 2 ℚ Nat where
  findPotentialCollisionPairs world := ([(a, b)], fun i => ((world.bodies i).wsTransform, (world.bodies i).wsAabb), 0)
  checkCollision _ _ world :=
    (some ⟨-1 / 100, contact.collisionNormal, 0⟩, fun i => ((world.bodies i).wsTransform, (world.bodies i).wsAabb),
      world.others)
  onCollisionCallback _ _ := some fun _ _ world => (true, world.others + 1)
  buildCollisionManifold a b _ world :=
    (some ⟨a, b, [contact]⟩, fun i => ((world.bodies i).wsTransform, (world.bodies i).wsAabb), world.others)
  onCollisionManifoldCallbacks _ _ := []

end Static

/-! ## Momentum -/

section Momentum

variable {K : Type} [ExactArithmetic K] {bodies : Fin n → RigidBody3D K} {p : Fin 3 → K}
  {engine : EngineSettings K} {body : RigidBody3D K}

/-- Bodies that no force acts on, with a total momentum. -/
structure Isolated (p : Fin 3 → K) (bodies : Fin n → RigidBody3D K) : Prop where
  balanced : Balanced p bodies
  force : ∀ i, (bodies i).force = 0

/-- Neither gravity nor damping, and a type that takes forces for what they are. -/
structure Undisturbed (engine : EngineSettings K) : Prop where
  gravity : engine.gravity = 0
  dampingFactor : engine.dampingFactor = 1
  integrationType : engine.integrationType ≠ .SEMI_IMPLICIT_EULER

/-- All that the momentum of a body and what changes it depend on. -/
structure SameMomentum (a b : RigidBody3D K) : Prop where
  linearVelocity : a.linearVelocity = b.linearVelocity
  invMass : a.invMass = b.invMass
  isStatic : a.isStatic = b.isStatic
  force : a.force = b.force

omit [ExactArithmetic K] in
theorem SameMomentum.trans {a b c : RigidBody3D K} (hab : SameMomentum a b) (hbc : SameMomentum b c) :
    SameMomentum a c :=
  ⟨hab.1.trans hbc.1, hab.2.trans hbc.2, hab.3.trans hbc.3, hab.4.trans hbc.4⟩

theorem Isolated.of_same (h : Isolated p bodies) {now : Fin n → RigidBody3D K}
    (hnow : ∀ i, SameMomentum (now i) (bodies i)) : Isolated p now := by
  refine ⟨⟨fun i => ?_, ?_⟩, fun i => (hnow i).force.trans (h.force i)⟩
  · rw [(hnow i).isStatic, (hnow i).invMass]
    exact h.balanced.movable i
  · rw [← h.balanced.momentum, totalMomentum, totalMomentum, Exchange.total, Exchange.total]
    refine Finset.sum_congr rfl fun i _ => ?_
    funext axis
    rw [RigidBody3D.momentum, RigidBody3D.momentum, (hnow i).linearVelocity, (hnow i).invMass]

omit [ExactArithmetic K] in
theorem same_update {k : Fin n} (hbody : SameMomentum body (bodies k)) (i : Fin n) :
    SameMomentum (Function.update bodies k body i) (bodies i) := by
  by_cases hi : i = k
  · subst hi
    rwa [Function.update_self]
  · rw [Function.update_of_ne hi]
    exact ⟨rfl, rfl, rfl, rfl⟩

omit [ExactArithmetic K] in
theorem same_setAngularVelocity (body : RigidBody3D K) (v : Vector3 K) :
    SameMomentum (body.setAngularVelocity v) body := by
  unfold RigidBody3D.setAngularVelocity
  split <;> exact ⟨rfl, rfl, rfl, rfl⟩

omit [ExactArithmetic K] in
theorem setLinearVelocity_force (body : RigidBody3D K) (v : Vector3 K) : (body.setLinearVelocity v).force = body.force := by
  unfold RigidBody3D.setLinearVelocity
  split <;> rfl

theorem force_applyImpulsePair (h : ∀ i, (bodies i).force = 0) (a b : Fin n) (r1 r2 direction : Vector3 K) (j : K) :
    ∀ i, (applyImpulsePair bodies a b r1 r2 direction j i).force = 0 := by
  have hwrite : ∀ {bodies : Fin n → RigidBody3D K} {k body}, (∀ i, (bodies i).force = 0) →
      body.force = (bodies k).force → ∀ i, (Function.update bodies k body i).force = 0 := by
    intro bodies k body h hbody i
    by_cases hi : i = k
    · subst hi
      rw [Function.update_self, hbody, h]
    · rw [Function.update_of_ne hi, h]
  exact hwrite (hwrite (hwrite (hwrite h (setLinearVelocity_force _ _)) (setLinearVelocity_force _ _))
    (same_setAngularVelocity _ _).force) (same_setAngularVelocity _ _).force

omit [ExactArithmetic K] in
/-- A weld only puts a body somewhere. -/
theorem same_weld [FloatInfinity K] (c : WeldConstraint n K) (bodies : Fin n → RigidBody3D K) (i : Fin n) :
    SameMomentum (c.applyImpulse bodies i) (bodies i) := by
  by_cases hi : i = c.obj2
  · subst hi
    simp only [WeldConstraint.applyImpulse, Function.update_self]
    exact ⟨rfl, rfl, rfl, rfl⟩
  · rw [c.applyImpulse_other bodies hi]
    exact ⟨rfl, rfl, rfl, rfl⟩

theorem kept_isolated (constraints : List (EngineConstraint n K)) : Kept constraints (Isolated (n := n) p) where
  pair a b r1 r2 direction j h :=
    ⟨h.balanced.applyImpulsePair a b r1 r2 direction j, force_applyImpulsePair h.force a b r1 r2 direction j⟩
  axis _ _ h := h.of_same (same_update (same_setAngularVelocity _ _))
  weld c _ h := h.of_same (same_weld c _)

section Nothing

variable (v : Vector3 K) (s : K)

theorem zero_vector_mul : (0 : Vector3 K) * s = 0 := by
  ext
  · exact zero_mul s
  · exact zero_mul s
  · exact zero_mul s

theorem vector_add_zero : v + 0 = v := by
  ext
  · exact add_zero v.x
  · exact add_zero v.y
  · exact add_zero v.z

theorem vector_mul_one : v * (1 : K) = v := by
  ext
  · exact mul_one v.x
  · exact mul_one v.y
  · exact mul_one v.z

theorem zero_vector_div :
    (⟨(0 : Vector3 K).x / s, (0 : Vector3 K).y / s, (0 : Vector3 K).z / s⟩ : Vector3 K) = 0 := by
  ext
  · exact zero_div s
  · exact zero_div s
  · exact zero_div s

end Nothing

/-- Without an acceleration neither method changes the velocity. -/
theorem RK2_velocity (position velocity : Vector3 K) (t dt : K) :
    (Integration.RK2 ⟨position, velocity, 0⟩ t dt).velocity = velocity := by
  simp only [Integration.RK2, Integration.evaluate, vector_add_zero, zero_vector_mul]

theorem RK4_velocity (position velocity : Vector3 K) (t dt : K) :
    (Integration.RK4 ⟨position, velocity, 0⟩ t dt).velocity = velocity := by
  simp only [Integration.RK4, Integration.evaluate, vector_add_zero, zero_vector_mul, zero_vector_div]

namespace RigidBody3D

theorem applyGravity_of_undisturbed (h : Undisturbed engine) : body.applyGravity engine = body := by
  unfold applyGravity
  split
  · rw [h.gravity, zero_vector_mul, vector_add_zero]
  · rfl

theorem same_rungeKutta (h : Undisturbed engine) (hforce : body.force = 0)
    {method : Integration.State K → K → K → Integration.State K}
    (hmethod : ∀ position velocity t dt, (method ⟨position, velocity, 0⟩ t dt).velocity = velocity) :
    SameMomentum (body.rungeKutta engine method) body := by
  refine ⟨?_, rfl, rfl, rfl⟩
  have hacceleration : body.force * body.invMass = 0 := by rw [hforce, zero_vector_mul]
  simp only [rungeKutta, integrateLinear, dampLinearVelocity, updateAngularVelocity, updateOrientation, hacceleration,
    hmethod, h.dampingFactor, vector_mul_one]

theorem same_explicitEuler (h : Undisturbed engine) (hforce : body.force = 0) :
    SameMomentum (body.explicitEuler engine) body := by
  refine ⟨?_, rfl, rfl, rfl⟩
  simp only [explicitEuler, dampLinearVelocity, updateAngularVelocity, updateOrientation, hforce, zero_vector_mul,
    vector_add_zero, h.dampingFactor, vector_mul_one]

theorem same_integrate (h : Undisturbed engine) (hforce : body.force = 0) :
    SameMomentum (body.integrate engine) body := by
  unfold integrate
  split
  · exact same_explicitEuler h hforce
  · next htype => exact absurd htype h.integrationType
  · exact same_rungeKutta h hforce RK2_velocity
  · exact same_rungeKutta h hforce RK4_velocity

theorem same_restTest (body : RigidBody3D K) : SameMomentum body.restTest body := by
  unfold restTest
  split <;> exact ⟨rfl, rfl, rfl, rfl⟩

theorem same_update (h : Undisturbed engine) (hforce : body.force = 0) : SameMomentum (body.update engine) body := by
  unfold update
  split
  · have hmoved := same_integrate h hforce
    rw [applyGravity_of_undisturbed h]
    exact (same_restTest _).trans ⟨hmoved.linearVelocity, hmoved.invMass, hmoved.isStatic, hmoved.force⟩
  · exact ⟨rfl, rfl, rfl, rfl⟩

end RigidBody3D

end Momentum

/-! ## The two-dimensional engine -/

/-- `B2PhysicsEngine`, without the world it steps. -/
structure B2PhysicsEngine (K : Type) where
  updateTimestep : K
  updateAccum : K
  paused : Bool
  multipleUpdates : Bool

/-- What the game calls. -/
inductive B2Call (K : Type) where
  | setPaused (paused : Bool)
  | onUpdate (seconds : K)

namespace B2PhysicsEngine

variable {σ : Type} {K : Type} [FloatInfinity K] (step : K → σ → σ)

/-- The loop of `OnUpdate`, where `step` is what `b2World::Step` does. -/
def updates (seconds : K) (engine : B2PhysicsEngine K) (world : σ) : K × σ :=
  FixedStep.frame (le engine.updateTimestep ·) (· - engine.updateTimestep) (step engine.updateTimestep) 0
    maxUpdatesPerFrame (engine.updateAccum + seconds) world

def onUpdate (seconds : K) (engine : B2PhysicsEngine K) (world : σ) : B2PhysicsEngine K × σ :=
  if engine.paused then (engine, world)
  else if engine.multipleUpdates then
    let updated := engine.updates step seconds world
    ({ engine with updateAccum := updated.1 }, updated.2)
  else (engine, step engine.updateTimestep world)

def perform (s : B2PhysicsEngine K × σ) : B2Call K → B2PhysicsEngine K × σ
  | .setPaused paused => ({ s.1 with paused }, s.2)
  | .onUpdate seconds => onUpdate step seconds s.1 s.2

/-- How long the frames take in which the engine is not paused. -/
def played : Bool → List (B2Call K) → List K
  | _, [] => []
  | _, .setPaused paused :: calls => played paused calls
  | true, .onUpdate _ :: calls => played true calls
  | false, .onUpdate seconds :: calls => seconds :: played false calls

/-- Calls are frames of fixed steps. -/
theorem perform_run (engine : B2PhysicsEngine K) (world : σ) (calls : List (B2Call K))
    (hmultiple : engine.multipleUpdates = true) :
    ((calls.foldl (perform step) (engine, world)).1.updateAccum, (calls.foldl (perform step) (engine, world)).2) =
      FixedStep.run (le engine.updateTimestep ·) (· - engine.updateTimestep) (step engine.updateTimestep) 0
        maxUpdatesPerFrame engine.updateAccum world (played engine.paused calls) := by
  induction calls generalizing engine world with
  | nil => rfl
  | cons call calls ih =>
    cases call with
    | setPaused paused => exact ih { engine with paused } world hmultiple
    | onUpdate seconds =>
      rw [List.foldl_cons]
      cases hpaused : engine.paused with
      | true =>
        have hcall : perform step (engine, world) (.onUpdate seconds) = (engine, world) := if_pos hpaused
        rw [hcall, ih engine world hmultiple, hpaused]
        rfl
      | false =>
        have hcall : perform step (engine, world) (.onUpdate seconds) =
            ({ engine with updateAccum := (engine.updates step seconds world).1 },
              (engine.updates step seconds world).2) :=
          (if_neg (by rw [hpaused]; exact Bool.false_ne_true)).trans (if_pos hmultiple)
        have hrest := ih { engine with updateAccum := (engine.updates step seconds world).1 }
          (engine.updates step seconds world).2 hmultiple
        rw [hcall, hrest, hpaused]
        rfl

/-! Where nothing is rounded -/

variable {engine : B2PhysicsEngine ℝ} (step : ℝ → σ → σ) (hmultiple : engine.multipleUpdates = true)
  (haccum : 0 ≤ engine.updateAccum) (hlt : engine.updateAccum < engine.updateTimestep)

include hmultiple haccum hlt

/-- The world makes as many steps as there are in the time that has been played, however that is divided into
frames, as long as none of them takes longer than five steps. -/
theorem world_of_short (world : σ) (calls : List (B2Call ℝ))
    (hcalls : ∀ t ∈ played engine.paused calls, 0 ≤ t ∧ t ≤ 5 * engine.updateTimestep) :
    let total := engine.updateAccum + (played engine.paused calls).sum
    let steps := FixedStep.stepsIn engine.updateTimestep total
    (calls.foldl (perform step) (engine, world)).2 = (step engine.updateTimestep)^[steps] world ∧
      (calls.foldl (perform step) (engine, world)).1.updateAccum = total - steps * engine.updateTimestep := by
  intro total steps
  have hdt : 0 < engine.updateTimestep := haccum.trans_lt hlt
  have hrun := perform_run step engine world calls hmultiple
  have hshort := FixedStep.run_of_le hdt (fun t => le_real _ t) (step engine.updateTimestep) maxUpdatesPerFrame
    engine.updateAccum world (played engine.paused calls) haccum hlt hcalls
  rw [hshort, Prod.mk.injEq] at hrun
  exact ⟨hrun.2, hrun.1⟩

omit hmultiple haccum hlt in
/-- Five frames of a thirtieth of a second, one of which is paused, are eight steps. -/
theorem world_of_frames : ([.onUpdate (1 / 30), .setPaused true, .onUpdate (1 / 30), .setPaused false, .onUpdate (1 / 30),
    .onUpdate (1 / 30), .onUpdate (1 / 30)].foldl (perform fun (_ : ℝ) steps => steps + 1)
    ((⟨1 / 60, 0, false, true⟩ : B2PhysicsEngine ℝ), 0)).2 = 8 := by
  have hworld := @world_of_short _ ⟨1 / 60, 0, false, true⟩ (fun (_ : ℝ) steps => steps + 1) rfl le_rfl (by norm_num) 0
    [.onUpdate (1 / 30), .setPaused true, .onUpdate (1 / 30), .setPaused false, .onUpdate (1 / 30), .onUpdate (1 / 30),
      .onUpdate (1 / 30)] (by simp [played]; norm_num)
  have hdt : (0 : ℝ) < 1 / 60 := by norm_num
  have hsteps : FixedStep.stepsIn (1 / 60) ((0 : ℝ) + (1 / 30 + (1 / 30 + (1 / 30 + (1 / 30 + 0))))) = 8 := by
    rw [← FixedStep.stepsIn_eq (k := 8) hdt le_rfl hdt]
    norm_num
  rw [hworld.1]
  change (fun steps => steps + 1)^[FixedStep.stepsIn (1 / 60) _] 0 = 8
  simp only [played, List.sum_cons, List.sum_nil, hsteps]
  rfl

/-- However long the frames take, there are at most five steps in each, the steps never take more time than has been
played, less than a step is left over, and none is lost exactly where no frame finds time for a sixth step. -/
theorem world_accounts (world : σ) (calls : List (B2Call ℝ)) (hcalls : ∀ t ∈ played engine.paused calls, 0 ≤ t) :
    let times := played engine.paused calls
    let accum := (calls.foldl (perform step) (engine, world)).1.updateAccum
    ∃ steps : Nat, (calls.foldl (perform step) (engine, world)).2 = (step engine.updateTimestep)^[steps] world ∧
      steps ≤ 5 * times.length ∧ 0 ≤ accum ∧ accum < engine.updateTimestep ∧
      steps * engine.updateTimestep + accum ≤ engine.updateAccum + times.sum ∧
      (steps * engine.updateTimestep + accum = engine.updateAccum + times.sum ↔
        FixedStep.Keeps (le engine.updateTimestep ·) engine.updateTimestep 5 engine.updateAccum times) := by
  intro times accum
  have hdt : 0 < engine.updateTimestep := haccum.trans_lt hlt
  have hrun := perform_run step engine world calls hmultiple
  obtain ⟨steps, rest, hrest, hcount, h0, h1, hle, heq⟩ := FixedStep.run_accounts hdt
    (fun t => le_real _ t) (step engine.updateTimestep) maxUpdatesPerFrame engine.updateAccum world times haccum hlt hcalls
  rw [hrest, Prod.mk.injEq] at hrun
  rw [← hrun.1] at h0 h1 hle heq
  exact ⟨steps, hrun.2, hcount, h0, h1, hle, heq⟩

omit hmultiple haccum hlt in
/-- A frame of a second finds time for sixty steps, and makes five. -/
theorem world_accounts_dropped :
    let calls : List (B2Call ℝ) := [.onUpdate (1 / 30), .setPaused true, .onUpdate 2, .setPaused false, .onUpdate 1]
    let engine : B2PhysicsEngine ℝ := ⟨1 / 60, 0, false, true⟩
    (calls.foldl (perform fun (_ : ℝ) steps => steps + 1) (engine, 0)).2 ≤ 10 := by
  intro calls engine
  have hcalls : ∀ t ∈ played engine.paused calls, 0 ≤ t := by simp [engine, calls, played]
  obtain ⟨steps, hworld, hcount, -⟩ := @world_accounts _ engine (fun (_ : ℝ) steps => steps + 1) rfl le_rfl
    (by norm_num [engine]) 0 calls hcalls
  have hiterate : Nat.succ^[steps] 0 = steps := by rw [Nat.succ_iterate, Nat.zero_add]
  rw [hworld]
  change Nat.succ^[steps] 0 ≤ 10
  rw [hiterate]
  exact hcount

end B2PhysicsEngine

end Lumos.Physics.Dynamics
