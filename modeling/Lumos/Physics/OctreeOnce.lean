import Mathlib.Data.List.Pairwise
import Lumos.Physics.NarrowPhase
import Lumos.Physics.OctreeBounds

/-!
# How often a pair is reported

The sweep of one leaf reports a pair at most once, but every leaf that two bodies share
is swept. So a pair is reported as often as there are leaves in which the sweep finds it.
-/
namespace Lumos.Physics

open Maths OrderedPairs Subdivision OctreeBroadphase

variable {β C : Type} [Coordinate C] (bodies : β → RigidBody3D C)

/-- The path ends at a leaf of the subdivision. -/
abbrev LeafOctant (settings : OctreeSettings) (c : Cell β C) (path : List (Fin 8)) : Prop :=
  IsLeaf (Cell.child bodies) (Cell.Crowded settings.maxObjectsPerPartition)
    (settings.maxPartitionDepth + 1) c path

/-- Side by side in an array sorted by left edges, `a` in front of `b`, the two bodies
pass the tests of the sweep. -/
def Sweepable (axis : Fin 3) (a b : β) : Prop :=
  ((bodies a).isActive = true ∨ (bodies b).isActive = true) ∧
    leftEdge bodies axis a ≤ leftEdge bodies axis b ∧ leftEdge bodies axis b < rightEdge bodies axis a

/-- No two bodies that the sweep can report, in one order or the other, are together in
two leaves. -/
def NoneShared (settings : OctreeSettings) (axis : Fin 3) (c : Cell β C) : Prop :=
  ∀ p q, LeafOctant bodies settings c p → LeafOctant bodies settings c q → p ≠ q →
    ∀ a b, a ≠ b →
      a ∈ (c.octant bodies p).physicsObjects → b ∈ (c.octant bodies p).physicsObjects →
      a ∈ (c.octant bodies q).physicsObjects → b ∈ (c.octant bodies q).physicsObjects →
      ¬ Sweepable bodies axis a b

variable {bodies}

theorem octant_sublist (c : Cell β C) (path : List (Fin 8)) :
    (c.octant bodies path).physicsObjects.Sublist c.physicsObjects := by
  induction path generalizing c with
  | nil => exact .refl _
  | cons i path ih => exact (ih (c.child bodies i)).trans List.filter_sublist

theorem leafPairs_eq {axis : Fin 3} (sort : LeftEdgeSort bodies axis) (settings : OctreeSettings)
    (c : Cell β C) :
    leafPairs sort settings c =
      (leafPaths (Cell.child bodies) (Cell.Crowded settings.maxObjectsPerPartition)
        (settings.maxPartitionDepth + 1) c).flatMap fun path =>
          sweep bodies axis (sort.sort (c.octant bodies path).physicsObjects) := by
  rw [leafPairs, Cell.leafCells, Subdivision.leaves, List.flatMap_map]
  rfl

/-- What the sweep reports of sorted bodies is two of them and passes its tests. -/
theorem sweepable_of_mem {axis : Fin 3} (sort : LeftEdgeSort bodies axis) {objects : List β} {a b : β}
    (hnodup : objects.Nodup) (h : (a, b) ∈ sweep bodies axis (sort.sort objects)) :
    a ≠ b ∧ a ∈ objects ∧ b ∈ objects ∧ Sweepable bodies axis a b := by
  obtain ⟨hpair, hactive, hoverlap⟩ := mem_sweep.mp h
  have hperm := sort.perm objects
  have hsorted : leftEdge bodies axis a ≤ leftEdge bodies axis b := by
    simpa using (sort.sorted objects).sublist hpair
  have hne : a ≠ b := by
    simpa using (hperm.nodup_iff.mpr hnodup).sublist hpair
  exact ⟨hne, hperm.mem_iff.mp (hpair.subset (by simp)), hperm.mem_iff.mp (hpair.subset (by simp)),
    hactive, hsorted, hoverlap⟩

theorem leafPairs_once {settings : OctreeSettings} {axis : Fin 3} {c : Cell β C}
    (hnodup : c.physicsObjects.Nodup) (h : NoneShared bodies settings axis c)
    (sort : LeftEdgeSort bodies axis) :
    Once (leafPairs sort settings c) ∧ ∀ cp ∈ leafPairs sort settings c, cp.1 ≠ cp.2 := by
  have hcell : ∀ path, (c.octant bodies path).physicsObjects.Nodup := fun path =>
    hnodup.sublist (octant_sublist c path)
  rw [leafPairs_eq]
  constructor
  · refine List.pairwise_flatMap.mpr ⟨fun path _ => sweep_once sort (hcell path), ?_⟩
    refine List.Pairwise.imp_of_mem ?_ leafPaths_nodup
    intro p q hp hq hpq x hx y hy hsame
    obtain ⟨a, b⟩ := x
    obtain ⟨hne, hap, hbp, hsweep⟩ := sweepable_of_mem sort (hcell p) hx
    have hq' : a ∈ (c.octant bodies q).physicsObjects ∧ b ∈ (c.octant bodies q).physicsObjects := by
      obtain ⟨_, hfirst, hsecond, _⟩ := sweepable_of_mem sort (hcell q) hy
      cases hsame with
      | inl heq =>
        obtain ⟨rfl, rfl⟩ := Prod.mk.inj heq
        exact ⟨hfirst, hsecond⟩
      | inr heq =>
        obtain ⟨rfl, rfl⟩ := Prod.mk.inj heq
        exact ⟨hsecond, hfirst⟩
    exact h p q (mem_leafPaths.mp hp) (mem_leafPaths.mp hq) hpq a b hne hap hbp hq'.1 hq'.2 hsweep
  · intro cp hcp
    obtain ⟨path, _, hmem⟩ := List.mem_flatMap.mp hcp
    exact (sweepable_of_mem sort (hcell path) hmem).1

/-- A sort that favours `a` makes the sweep of every leaf that holds both report the pair. -/
theorem noneShared_of_once {settings : OctreeSettings} {axis : Fin 3} {c : Cell β C}
    (h : ∀ sort : LeftEdgeSort bodies axis, Once (leafPairs sort settings c)) :
    NoneShared bodies settings axis c := by
  classical
  intro p q hp hq hpq a b hab hap hbp haq hbq hsweep
  obtain ⟨hactive, hsorted, hoverlap⟩ := hsweep
  let sort : LeftEdgeSort bodies axis := SortBy.favour (leftEdge bodies axis) a
  have honce := h sort
  rw [leafPairs_eq] at honce
  have hreported : ∀ path, a ∈ (c.octant bodies path).physicsObjects →
      b ∈ (c.octant bodies path).physicsObjects →
      (a, b) ∈ sweep bodies axis (sort.sort (c.octant bodies path).physicsObjects) := by
    intro path ha hb
    exact mem_sweep.mpr ⟨favour_first hab hsorted ha hb, hactive, hoverlap⟩
  have hapart := (List.pairwise_flatMap.mp honce).2
  have hsymm : Std.Symm fun p q : List (Fin 8) =>
      ∀ x ∈ sweep bodies axis (sort.sort (c.octant bodies p).physicsObjects),
      ∀ y ∈ sweep bodies axis (sort.sort (c.octant bodies q).physicsObjects), ¬ SamePair x y :=
    ⟨fun _ _ hpq x hx y hy hsame => hpq y hy x hx hsame.symm⟩
  exact hapart.forall (mem_leafPaths.mpr hp) (mem_leafPaths.mpr hq) hpq (a, b) (hreported p hap hbp)
    (a, b) (hreported q haq hbq) (.inl rfl)

theorem noneShared_of_uncrowded {settings : OctreeSettings} {c : Cell β C}
    (h : ¬ c.Crowded settings.maxObjectsPerPartition) (axis : Fin 3) :
    NoneShared bodies settings axis c := by
  intro p q hp hq hpq
  have hroot : ∀ path, LeafOctant bodies settings c path → path = [] := by
    intro path hpath
    have hmem := mem_leafPaths.mpr hpath
    simpa [leafPaths, h] using hmem
  exact absurd ((hroot p hp).trans (hroot q hq).symm) hpq

/-- For distinct bodies: whatever the sort does, the call reports no two bodies twice, the
narrow phase makes at most one manifold for them and fires no callback about them twice,
exactly when the arrays are large enough and no two leaves share two bodies that the
sweep can report. -/
theorem findPotentialCollisionPairs_once_iff (settings : OctreeSettings) (axis : Fin 3)
    (o : OctreeBroadphase β C) (objects : List (Option β)) (hdistinct : (objects.filterMap id).Nodup) :
    (∀ sort : LeftEdgeSort bodies axis, ∃ o' collisionPairs,
      findPotentialCollisionPairs bodies settings (sortAndSweep bodies axis sort) o objects [] =
          some (o', collisionPairs) ∧
        Once collisionPairs ∧
        ∀ (σ : Type) (handlers : CollisionHandlers β σ) (scene : σ),
          Once (handlers.narrowPhaseCollisions collisionPairs ⟨scene, [], []⟩).manifolds ∧
          (handlers.narrowPhaseCollisions collisionPairs ⟨scene, [], []⟩).events.Nodup) ↔
      (Cell.world bodies (rootBox o) objects).FitsArrays bodies settings ∧
        NoneShared bodies settings axis (Cell.world bodies (rootBox o) objects) := by
  have hnodup : (Cell.world bodies (rootBox o) objects).physicsObjects.Nodup :=
    hdistinct.sublist List.filter_sublist
  constructor
  · intro h
    have hfits : (Cell.world bodies (rootBox o) objects).FitsArrays bodies settings := by
      by_contra hnot
      obtain ⟨o', collisionPairs, hcall, _⟩ := h (SortBy.stable _)
      rw [(findPotentialCollisionPairs_spec _ settings o objects []).2 hnot] at hcall
      cases hcall
    refine ⟨hfits, noneShared_of_once fun sort => ?_⟩
    obtain ⟨o', collisionPairs, hcall, honce, _⟩ := h sort
    obtain ⟨o'', hrun⟩ := (findPotentialCollisionPairs_spec sort settings o objects []).1 hfits
    rw [hrun, List.nil_append] at hcall
    obtain ⟨_, rfl⟩ := Prod.mk.inj (Option.some.inj hcall)
    exact honce
  · intro h sort
    obtain ⟨hfits, hshared⟩ := h
    obtain ⟨o', hrun⟩ := (findPotentialCollisionPairs_spec sort settings o objects []).1 hfits
    obtain ⟨honce, hne⟩ := leafPairs_once hnodup hshared sort
    exact ⟨o', _, hrun, honce, fun σ handlers scene => narrowPhaseCollisions_once handlers honce hne scene⟩

section Neighbours

/-- Two unit boxes that overlap. -/
def neighbours : Fin 2 → RigidBody3D ℚ
  | 0 => ⟨⟨⟨0, 0, 0⟩, ⟨2, 2, 2⟩⟩, true, false, false⟩
  | 1 => ⟨⟨⟨1, 1, 1⟩, ⟨3, 3, 3⟩⟩, true, false, false⟩

theorem findPotentialCollisionPairs_once_neighbours :
    ∃ o' collisionPairs,
      findPotentialCollisionPairs neighbours .scene (sortAndSweep neighbours 0 (SortBy.stable _)) create
          [some 0, some 1] [] = some (o', collisionPairs) ∧
        Once collisionPairs ∧
        ∀ (σ : Type) (handlers : CollisionHandlers (Fin 2) σ) (scene : σ),
          Once (handlers.narrowPhaseCollisions collisionPairs ⟨scene, [], []⟩).manifolds ∧
          (handlers.narrowPhaseCollisions collisionPairs ⟨scene, [], []⟩).events.Nodup := by
  have huncrowded : ¬ (Cell.world neighbours (rootBox (create : OctreeBroadphase (Fin 2) ℚ))
      [some 0, some 1]).Crowded OctreeSettings.scene.maxObjectsPerPartition := by decide
  have honce := (findPotentialCollisionPairs_once_iff .scene 0 create [some 0, some 1] (by decide)).mpr
    ⟨Cell.fitsArrays_of_uncrowded (by decide) huncrowded, noneShared_of_uncrowded huncrowded 0⟩
  exact honce (SortBy.stable _)

/-- Two boxes across the center of the world and four in its corners. -/
def gathering : Fin 6 → RigidBody3D ℚ
  | 0 => ⟨⟨⟨-2, -2, -2⟩, ⟨1, 1, 1⟩⟩, true, false, false⟩
  | 1 => ⟨⟨⟨-1, -1, -1⟩, ⟨2, 2, 2⟩⟩, true, false, false⟩
  | 2 => ⟨⟨⟨-10, -10, -10⟩, ⟨-9, -9, -9⟩⟩, true, false, false⟩
  | 3 => ⟨⟨⟨9, -10, -10⟩, ⟨10, -9, -9⟩⟩, true, false, false⟩
  | 4 => ⟨⟨⟨-10, 9, -10⟩, ⟨-9, 10, -9⟩⟩, true, false, false⟩
  | 5 => ⟨⟨⟨9, 9, 9⟩, ⟨10, 10, 10⟩⟩, true, false, false⟩

/-- Handlers for which every two bodies collide. -/
def alwaysCollide : CollisionHandlers (Fin 6) Unit where
  hasCollisionShape := fun _ _ => true
  checkCollision := fun _ _ scene => (true, scene)
  onCollisionCallback := fun _ _ => none
  wakeUp := fun _ scene => scene
  buildCollisionManifold := fun _ _ scene => (true, scene)
  onCollisionManifoldCallbacks := fun _ _ => []

/-- The two boxes in the middle are reported, and collide, eight times. -/
theorem findPotentialCollisionPairs_gathering :
    ∃ o' collisionPairs, findPotentialCollisionPairs gathering .scene
        (sortAndSweep gathering 0 (SortBy.stable _)) create ((List.finRange 6).map some) [] =
          some (o', collisionPairs) ∧
      collisionPairs = List.replicate 8 (0, 1) ∧ ¬ Once collisionPairs ∧
      (alwaysCollide.narrowPhaseCollisions collisionPairs ⟨(), [], []⟩).manifolds =
        List.replicate 8 (0, 1) := by
  have hpairs : (findPotentialCollisionPairs gathering .scene
      (sortAndSweep gathering 0 (SortBy.stable _)) create ((List.finRange 6).map some) []).map Prod.snd =
        some (List.replicate 8 (0, 1)) := by decide +kernel
  obtain ⟨⟨o', collisionPairs⟩, hcall, rfl⟩ := Option.map_eq_some_iff.mp hpairs
  refine ⟨o', _, hcall, rfl, ?_, by decide⟩
  intro honce
  exact (List.pairwise_cons.mp honce).1 (0, 1) (by decide) (.inl rfl)

end Neighbours

end Lumos.Physics
