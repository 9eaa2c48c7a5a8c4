import Lumos.Physics.OctreeBroadphase

/-!
# `LumosPhysicsEngine::NarrowPhaseCollisions`

The collision tests, the callbacks of the bodies and everything else they may change are
handlers on a state of the scene. Beside it stand the manifolds and a log of the
callbacks fired.
-/
namespace Lumos.Physics

open OrderedPairs

variable {β σ : Type}

/-- What the narrow phase reads and calls, over any state of the scene. -/
structure CollisionHandlers (β σ : Type) where
  hasCollisionShape : σ → β → Bool
  checkCollision : β → β → σ → Bool × σ
  onCollisionCallback : σ → β → Option (β → β → σ → Bool × σ)
  wakeUp : β → σ → σ
  buildCollisionManifold : β → β → σ → Bool × σ
  onCollisionManifoldCallbacks : σ → β → List (β → β → σ → σ)

/-- A callback fired at one body about another. -/
inductive CollisionEvent (β : Type) where
  | onCollision (body other : β)
  | onCollisionManifold (body other : β)
  deriving DecidableEq

structure NarrowPhase (β σ : Type) where
  scene : σ
  manifolds : List (CollisionPair β)
  events : List (CollisionEvent β)

namespace CollisionHandlers

variable (handlers : CollisionHandlers β σ)

/-- `body->FireOnCollisionEvent(obj_a, obj_b)` -/
def fireOnCollisionEvent (body objA objB : β) (scene : σ) : Bool × σ :=
  let (handleCollision, scene) :=
    match handlers.onCollisionCallback scene body with
    | some callback => callback objA objB scene
    | none => (true, scene)
  (handleCollision, if handleCollision then handlers.wakeUp body scene else scene)

/-- `body->FireOnCollisionManifoldCallback(a, b, &manifold)` -/
def fireOnCollisionManifoldCallback (body a b : β) (scene : σ) : σ :=
  (handlers.onCollisionManifoldCallbacks scene body).foldl (fun scene callback => callback a b scene) scene

/-- One turn of the loop over the pairs of the broadphase. -/
def collidePair (s : NarrowPhase β σ) (cp : CollisionPair β) : NarrowPhase β σ :=
  let (a, b) := cp
  if handlers.hasCollisionShape s.scene a && handlers.hasCollisionShape s.scene b then
    let (colliding, scene) := handlers.checkCollision a b s.scene
    if colliding then
      let (okA, scene) := handlers.fireOnCollisionEvent a a b scene
      let (okB, scene) := handlers.fireOnCollisionEvent b b a scene
      let events := s.events ++ [.onCollision a b, .onCollision b a]
      if okA && okB then
        let manifolds := s.manifolds ++ [cp]
        let (built, scene) := handlers.buildCollisionManifold a b scene
        if built then
          let scene := handlers.fireOnCollisionManifoldCallback a a b scene
          let scene := handlers.fireOnCollisionManifoldCallback b b a scene
          ⟨scene, manifolds, events ++ [.onCollisionManifold a b, .onCollisionManifold b a]⟩
        else ⟨scene, manifolds.dropLast, events⟩
      else ⟨scene, s.manifolds, events⟩
    else ⟨scene, s.manifolds, s.events⟩
  else s

def narrowPhaseCollisions (collisionPairs : List (CollisionPair β)) (s : NarrowPhase β σ) :
    NarrowPhase β σ := collisionPairs.foldl handlers.collidePair s

end CollisionHandlers

/-- The most a pair can set off. -/
def eventsOf (cp : CollisionPair β) : List (CollisionEvent β) :=
  [.onCollision cp.1 cp.2, .onCollision cp.2 cp.1,
    .onCollisionManifold cp.1 cp.2, .onCollisionManifold cp.2 cp.1]

section Run

variable (handlers : CollisionHandlers β σ)

/-- A pair adds at most one manifold and its own events. -/
theorem collidePair_adds (s : NarrowPhase β σ) (cp : CollisionPair β) :
    ∃ manifolds events,
      (handlers.collidePair s cp).manifolds = s.manifolds ++ manifolds ∧ manifolds.Sublist [cp] ∧
      (handlers.collidePair s cp).events = s.events ++ events ∧ events.Sublist (eventsOf cp) := by
  obtain ⟨a, b⟩ := cp
  have hfirst : [CollisionEvent.onCollision a b, .onCollision b a].Sublist (eventsOf (a, b)) :=
    (List.prefix_append _ [CollisionEvent.onCollisionManifold a b, .onCollisionManifold b a]).sublist
  unfold CollisionHandlers.collidePair
  dsimp only
  split
  · split
    · split
      · split
        · exact ⟨[(a, b)], eventsOf (a, b), rfl, .refl _, by simp [eventsOf], .refl _⟩
        · exact ⟨[], _, by simp, List.nil_sublist _, rfl, hfirst⟩
      · exact ⟨[], _, by simp, List.nil_sublist _, rfl, hfirst⟩
    · exact ⟨[], [], by simp, List.nil_sublist _, by simp, List.nil_sublist _⟩
  · exact ⟨[], [], by simp, List.nil_sublist _, by simp, List.nil_sublist _⟩

/-- Over all pairs: at most one manifold and one set of events for each of them. -/
theorem narrowPhaseCollisions_adds (collisionPairs : List (CollisionPair β)) (s : NarrowPhase β σ) :
    ∃ manifolds events,
      (handlers.narrowPhaseCollisions collisionPairs s).manifolds = s.manifolds ++ manifolds ∧
        manifolds.Sublist collisionPairs ∧
      (handlers.narrowPhaseCollisions collisionPairs s).events = s.events ++ events ∧
        events.Sublist (collisionPairs.flatMap eventsOf) := by
  induction collisionPairs generalizing s with
  | nil => exact ⟨[], [], (List.append_nil _).symm, .refl _, (List.append_nil _).symm, .refl _⟩
  | cons cp rest ih =>
    obtain ⟨ms, es, hms, hmsub, hes, hesub⟩ := collidePair_adds handlers s cp
    obtain ⟨ms', es', hms', hmsub', hes', hesub'⟩ := ih (handlers.collidePair s cp)
    refine ⟨ms ++ ms', es ++ es', ?_, hmsub.append hmsub', ?_, hesub.append hesub'⟩
    · rw [← List.append_assoc, ← hms]
      exact hms'
    · rw [← List.append_assoc, ← hes]
      exact hes'

theorem eventsOf_nodup {cp : CollisionPair β} (h : cp.1 ≠ cp.2) : (eventsOf cp).Nodup := by
  simp [eventsOf, h, h.symm]

theorem eventsOf_disjoint {p q : CollisionPair β} (h : ¬ SamePair p q) :
    (eventsOf p).Disjoint (eventsOf q) := by
  obtain ⟨a, b⟩ := p
  obtain ⟨c, d⟩ := q
  simp only [SamePair, Prod.mk.injEq, Prod.swap_prod_mk, not_or] at h
  simp only [eventsOf, List.disjoint_left]
  grind

/-- Pairs reported once make each event happen at most once. -/
theorem flatMap_eventsOf_nodup {collisionPairs : List (CollisionPair β)} (h : Once collisionPairs)
    (hne : ∀ cp ∈ collisionPairs, cp.1 ≠ cp.2) : (collisionPairs.flatMap eventsOf).Nodup :=
  List.nodup_flatMap.mpr ⟨fun cp hcp => eventsOf_nodup (hne cp hcp),
    h.imp fun hpq => eventsOf_disjoint hpq⟩

/-- From the start of a step: pairs reported once give at most one manifold for each pair
of bodies, and no callback about the same two bodies is fired twice. -/
theorem narrowPhaseCollisions_once {collisionPairs : List (CollisionPair β)} (h : Once collisionPairs)
    (hne : ∀ cp ∈ collisionPairs, cp.1 ≠ cp.2) (scene : σ) :
    Once (handlers.narrowPhaseCollisions collisionPairs ⟨scene, [], []⟩).manifolds ∧
      (handlers.narrowPhaseCollisions collisionPairs ⟨scene, [], []⟩).events.Nodup := by
  obtain ⟨manifolds, events, hmanifolds, hmsub, hevents, hesub⟩ :=
    narrowPhaseCollisions_adds handlers collisionPairs ⟨scene, [], []⟩
  rw [hmanifolds, hevents]
  exact ⟨h.sublist hmsub, (flatMap_eventsOf_nodup h hne).sublist hesub⟩

end Run

/-! ## What is kept -/

/-- No handler takes away what holds of the scene. -/
structure CollisionHandlers.Keep (handlers : CollisionHandlers β σ) (P : σ → Prop) : Prop where
  checkCollision : ∀ a b {scene}, P scene → P (handlers.checkCollision a b scene).2
  onCollisionCallback : ∀ scene body, ∀ callback ∈ handlers.onCollisionCallback scene body, ∀ a b {scene},
    P scene → P (callback a b scene).2
  wakeUp : ∀ body {scene}, P scene → P (handlers.wakeUp body scene)
  buildCollisionManifold : ∀ a b {scene}, P scene → P (handlers.buildCollisionManifold a b scene).2
  onCollisionManifoldCallbacks : ∀ scene body, ∀ callback ∈ handlers.onCollisionManifoldCallbacks scene body,
    ∀ a b {scene}, P scene → P (callback a b scene)

namespace CollisionHandlers.Keep

variable {handlers : CollisionHandlers β σ} {P : σ → Prop} (hP : handlers.Keep P)

include hP

theorem fireOnCollisionEvent (body a b : β) {scene : σ} (h : P scene) :
    P (handlers.fireOnCollisionEvent body a b scene).2 := by
  unfold CollisionHandlers.fireOnCollisionEvent
  cases hcallback : handlers.onCollisionCallback scene body with
  | none => exact hP.wakeUp body h
  | some callback =>
    have hcalled := hP.onCollisionCallback scene body callback hcallback a b h
    dsimp only
    split
    · exact hP.wakeUp body hcalled
    · exact hcalled

theorem fireOnCollisionManifoldCallback (body a b : β) {scene : σ} (h : P scene) :
    P (handlers.fireOnCollisionManifoldCallback body a b scene) :=
  List.foldlRecOn (motive := P) _ _ h fun _ h callback hcallback =>
    hP.onCollisionManifoldCallbacks scene body callback hcallback a b h

theorem collidePair {s : NarrowPhase β σ} (h : P s.scene) (cp : CollisionPair β) :
    P (handlers.collidePair s cp).scene := by
  have hchecked := hP.checkCollision cp.1 cp.2 h
  have hfirst := hP.fireOnCollisionEvent cp.1 cp.1 cp.2 hchecked
  have hsecond := hP.fireOnCollisionEvent cp.2 cp.2 cp.1 hfirst
  have hbuilt := hP.buildCollisionManifold cp.1 cp.2 hsecond
  unfold CollisionHandlers.collidePair
  dsimp only
  split
  · split
    · split
      · split
        · exact hP.fireOnCollisionManifoldCallback _ _ _ (hP.fireOnCollisionManifoldCallback _ _ _ hbuilt)
        · exact hbuilt
      · exact hsecond
    · exact hchecked
  · exact h

/-- What every handler keeps is kept by all tests of a step. -/
theorem narrowPhaseCollisions (collisionPairs : List (CollisionPair β)) {s : NarrowPhase β σ} (h : P s.scene) :
    P (handlers.narrowPhaseCollisions collisionPairs s).scene :=
  List.foldlRecOn (motive := fun s : NarrowPhase β σ => P s.scene) _ _ h fun _ h cp _ => hP.collidePair h cp

end CollisionHandlers.Keep

end Lumos.Physics
