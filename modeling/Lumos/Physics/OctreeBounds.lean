import Mathlib.Tactic.Linarith
import Lumos.Physics.OctreeSubdivision

/-!
# When the arrays of the octree are large enough

A call succeeds exactly when the bodies fit into the root's array and the nodes of the
subdivision into the pool, and then it has swept the leaves of the subdivision.
-/
namespace Lumos.Physics

open Maths OrderedPairs Subdivision FixedArray OctreeBroadphase

variable {β C : Type} [Coordinate C] (bodies : β → RigidBody3D C)

omit [Coordinate C] in
/-- The bodies the octree takes in. -/
def shapedBodies (objects : List (Option β)) : List β :=
  (objects.filterMap id).filter fun b => (bodies b).hasCollisionShape

namespace Cell

/-- All bodies with a shape, in the box around them and an earlier box. -/
def world (box : BoundingBox C) (objects : List (Option β)) : Cell β C where
  boundingBox := (shapedBodies bodies objects).foldl (fun box b => box.merge (bodies b).worldSpaceAABB) box
  physicsObjects := shapedBodies bodies objects

/-- The cell reached from `c` by a path of octants. -/
def octant (c : Cell β C) (path : List (Fin 8)) : Cell β C := descend (child bodies) c path

/-- How many cells down to the greatest depth hold more bodies than a partition should. -/
def crowdedOctants (settings : OctreeSettings) (c : Cell β C) : Nat :=
  (pathsUpTo 8 settings.maxPartitionDepth).countP fun path =>
    decide (settings.maxObjectsPerPartition < (c.octant bodies path).physicsObjects.length)

/-- There are enough entries in the arrays of the octree. -/
structure FitsArrays (settings : OctreeSettings) (c : Cell β C) : Prop where
  objects : c.physicsObjects.length ≤ maxObjectsPerNode
  nodes : 1 + 8 * c.crowdedOctants bodies settings ≤ poolSize

/-- The leaves of the subdivision. -/
def leafCells (settings : OctreeSettings) (c : Cell β C) : List (Cell β C) :=
  leaves (child bodies) (Crowded settings.maxObjectsPerPartition) (settings.maxPartitionDepth + 1) c

variable {bodies}

theorem nodesBelow_eq (settings : OctreeSettings) (c : Cell β C) :
    c.nodesBelow bodies settings.maxObjectsPerPartition (settings.maxPartitionDepth + 1) =
      8 * c.crowdedOctants bodies settings := by
  rw [nodesBelow, divisions_eq_countP crowded_of_child]
  rfl

theorem fitsArrays_of_uncrowded {settings : OctreeSettings} {c : Cell β C}
    (hobjects : c.physicsObjects.length ≤ maxObjectsPerNode)
    (h : ¬ c.Crowded settings.maxObjectsPerPartition) : c.FitsArrays bodies settings := by
  have hnodes : 8 * c.crowdedOctants bodies settings = 0 := by
    rw [← nodesBelow_eq, nodesBelow, divisions_uncrowded h]
  exact ⟨hobjects, by rw [hnodes]; decide⟩

end Cell

omit [Coordinate C] in
theorem shapedBodies_pos {b : β} (h : (bodies b).hasCollisionShape = true) (objects : List (Option β)) :
    shapedBodies bodies (some b :: objects) = b :: shapedBodies bodies objects := by
  simp [shapedBodies, h]

omit [Coordinate C] in
theorem shapedBodies_neg {b : β} (h : ¬ (bodies b).hasCollisionShape = true)
    (objects : List (Option β)) :
    shapedBodies bodies (some b :: objects) = shapedBodies bodies objects := by
  simp [shapedBodies, h]

omit [Coordinate C] in
/-- From `o` to `o'` the root has come to hold the cell, and nothing else has changed that
the division looks at. -/
structure TakesIn (o o' : OctreeBroadphase β C) (c : Cell β C) : Prop where
  holds : Holds o' root c
  pool : o'.currentPoolIndex = o.currentPoolIndex
  leaves : o'.leaves = o.leaves
  childNodeIndices : (o'.nodePool root).childNodeIndices = (o.nodePool root).childNodeIndices

theorem addObject_room {o : OctreeBroadphase β C} {c : Cell β C} {b : β} (h : Holds o root c)
    (hshape : (bodies b).hasCollisionShape = true)
    (hroom : c.physicsObjects.length < maxObjectsPerNode) :
    ∃ o', addObject bodies o (some b) = some o' ∧
      TakesIn o o' ⟨c.boundingBox.merge (bodies b).worldSpaceAABB, c.physicsObjects ++ [b]⟩ := by
  have hlength : (o.nodePool root).physicsObjects.length < maxObjectsPerNode := by
    rw [h.physicsObjects, List.length_map]
    exact hroom
  let o' : OctreeBroadphase β C := { o with
    nodePool := Function.update o.nodePool root { o.nodePool root with
      boundingBox := (o.nodePool root).boundingBox.merge (bodies b).worldSpaceAABB
      physicsObjects := (o.nodePool root).physicsObjects ++ [some b] } }
  refine ⟨o', by simp [addObject, hshape, push_of_lt hlength, o'], ?_, rfl, rfl, by simp [o']⟩
  constructor
  · simp [o', h.index]
  · simp [o', h.physicsObjects]
  · simp [o', h.boundingBox]

theorem addObject_full {o : OctreeBroadphase β C} {c : Cell β C} {b : β} (h : Holds o root c)
    (hshape : (bodies b).hasCollisionShape = true)
    (hfull : maxObjectsPerNode ≤ c.physicsObjects.length) : addObject bodies o (some b) = none := by
  have hlength : maxObjectsPerNode ≤ (o.nodePool root).physicsObjects.length := by
    rw [h.physicsObjects, List.length_map]
    exact hfull
  simp [addObject, hshape, push_of_le hlength]

/-- The root takes in the bodies with a shape, as long as there is room. -/
theorem foldlM_addObject (objects : List (Option β)) (o : OctreeBroadphase β C) (c : Cell β C)
    (h : Holds o root c) (hroom : c.physicsObjects.length ≤ maxObjectsPerNode) :
    let shaped := shapedBodies bodies objects
    (c.physicsObjects.length + shaped.length ≤ maxObjectsPerNode →
      ∃ o', objects.foldlM (addObject bodies) o = some o' ∧
        TakesIn o o' ⟨shaped.foldl (fun box b => box.merge (bodies b).worldSpaceAABB) c.boundingBox,
          c.physicsObjects ++ shaped⟩) ∧
    (maxObjectsPerNode < c.physicsObjects.length + shaped.length →
      objects.foldlM (addObject bodies) o = none) := by
  induction objects generalizing o c with
  | nil =>
    have hsame : Holds o root ⟨c.boundingBox, c.physicsObjects ++ []⟩ := by
      rw [List.append_nil]
      exact h
    exact ⟨fun _ => ⟨o, rfl, hsame, rfl, rfl, rfl⟩, fun hover => absurd hroom (Nat.not_le.mpr hover)⟩
  | cons ref objects ih =>
    rw [List.foldlM_cons]
    cases ref with
    | none => exact ih o c h hroom
    | some b =>
      by_cases hshape : (bodies b).hasCollisionShape = true
      · simp only [shapedBodies_pos bodies hshape, List.length_cons, List.foldl_cons]
        by_cases hfull : c.physicsObjects.length < maxObjectsPerNode
        · obtain ⟨o₁, hturn, htakes⟩ := addObject_room bodies h hshape hfull
          have hlength : (c.physicsObjects ++ [b]).length = c.physicsObjects.length + 1 := by simp
          obtain ⟨hfits, hover⟩ := ih o₁ _ htakes.holds (by rw [hlength]; exact hfull)
          rw [hlength, List.append_assoc, List.singleton_append] at hfits
          rw [hlength] at hover
          rw [hturn, Option.bind_eq_bind, Option.bind_some]
          constructor
          · intro htotal
            obtain ⟨o', hrun, hrest⟩ := hfits (by omega)
            exact ⟨o', hrun, hrest.holds, hrest.pool.trans htakes.pool, hrest.leaves.trans htakes.leaves,
              hrest.childNodeIndices.trans htakes.childNodeIndices⟩
          · intro htotal
            exact hover (by omega)
        · rw [addObject_full bodies h hshape (Nat.not_lt.mp hfull)]
          refine ⟨fun htotal => ?_, fun _ => rfl⟩
          omega
      · have hturn : addObject bodies o (some b) = some o := by simp [addObject, hshape]
        rw [hturn, shapedBodies_neg bodies hshape, Option.bind_eq_bind, Option.bind_some]
        exact ih o c h hroom

/-- The box the root has kept from earlier calls. -/
def rootBox (o : OctreeBroadphase β C) : BoundingBox C := (o.nodePool root).boundingBox

theorem partitionWorld_spec (settings : OctreeSettings) (o : OctreeBroadphase β C)
    (objects : List (Option β)) :
    let c := Cell.world bodies (rootBox o) objects
    (c.FitsArrays bodies settings →
      ∃ o', partitionWorld bodies settings o objects = some o' ∧ o'.leaves.Nodup ∧
        List.Forall₂ (Holds o') o'.leaves ((c.leafCells bodies settings).filter Cell.occupied)) ∧
    (¬ c.FitsArrays bodies settings → partitionWorld bodies settings o objects = none) := by
  have hroot : Holds o.reset root (⟨rootBox o, []⟩ : Cell β C) := ⟨rfl, rfl, rfl⟩
  obtain ⟨hfits, hover⟩ := foldlM_addObject bodies objects o.reset _ hroot (Nat.zero_le _)
  simp only [List.length_nil, Nat.zero_add, List.nil_append] at hfits hover
  by_cases hcount : (shapedBodies bodies objects).length ≤ maxObjectsPerNode
  · obtain ⟨o₁, hrun, hholds, hpool, hleaves, hchildless⟩ := hfits hcount
    have hcall : partitionWorld bodies settings o objects =
        divide bodies settings.maxObjectsPerPartition (settings.maxPartitionDepth + 1) root o₁ := by
      simp [partitionWorld, hrun]
    have hpool₁ : o₁.currentPoolIndex = 1 := hpool
    have hleaves₁ : o₁.leaves = [] := hleaves
    have hready : Ready o₁ root (Cell.world bodies (rootBox o) objects) :=
      ⟨hholds, by rw [hpool₁]; decide, by rw [hpool₁]; decide, hcount⟩
    obtain ⟨hdivides, hbounds⟩ := divide_spec bodies settings.maxObjectsPerPartition
      (settings.maxPartitionDepth + 1) o₁ root _ hready hchildless (by rw [hleaves₁, hpool₁]; decide)
    rw [Cell.nodesBelow_eq, hpool₁] at hdivides hbounds
    constructor
    · intro h
      obtain ⟨o', new, hdivide, hgrows, _⟩ := hdivides h.nodes
      have hnew : o'.leaves = new := by rw [hgrows.leaves, hleaves₁, List.nil_append]
      exact ⟨o', hcall.trans hdivide, hnew ▸ hgrows.distinct, hnew ▸ hgrows.cells⟩
    · intro h
      exact hcall.trans (hbounds (Nat.not_le.mp fun hnodes => h ⟨hcount, hnodes⟩))
  · have hcall : partitionWorld bodies settings o objects = none := by
      simp [partitionWorld, hover (Nat.not_le.mp hcount)]
    exact ⟨fun h => absurd h.objects hcount, fun _ => hcall⟩

section Sweep

variable {bodies} {o : OctreeBroadphase β C} {axis : Fin 3} (sort : LeftEdgeSort bodies axis)

/-- The pairs found in the leaves, one leaf after the other. -/
def leafPairs (settings : OctreeSettings) (c : Cell β C) : List (CollisionPair β) :=
  (c.leafCells bodies settings).flatMap fun leaf => sweep bodies axis (sort.sort leaf.physicsObjects)

theorem sweep_of_length_le_one {sorted : List β} (h : sorted.length ≤ 1) : sweep bodies axis sorted = [] := by
  match sorted with
  | [] => rfl
  | [_] => rfl

/-- A leaf is swept, and all other nodes stay as they are. -/
theorem pairsOfLeaf_spec {leaf : PoolIndex} {c : Cell β C} (h : Holds o leaf c)
    (pairs : List (CollisionPair β)) :
    ∃ o', pairsOfLeaf (sortAndSweep bodies axis sort) (o, pairs) leaf =
        some (o', pairs ++ sweep bodies axis (sort.sort c.physicsObjects)) ∧
      ∀ j, j ≠ leaf → o'.nodePool j = o.nodePool j := by
  have hlength : (o.nodePool leaf).physicsObjects.length = c.physicsObjects.length := by
    rw [h.physicsObjects, List.length_map]
  by_cases hmany : c.physicsObjects.length > 1
  · have hsweep := sortAndSweep_some sort c.physicsObjects pairs
    rw [← h.physicsObjects] at hsweep
    let o' : OctreeBroadphase β C := { o with
      nodePool := Function.update o.nodePool leaf { o.nodePool leaf with
        physicsObjects := (sort.sort c.physicsObjects).map some } }
    refine ⟨o', ?_, ?_⟩
    · simp [pairsOfLeaf, hlength, hmany, hsweep, o']
    · intro j hj
      exact Function.update_of_ne hj _ _
  · have hsorted : (sort.sort c.physicsObjects).length ≤ 1 := by
      rw [(sort.perm c.physicsObjects).length_eq]
      omega
    refine ⟨o, ?_, fun _ _ => rfl⟩
    simp [pairsOfLeaf, hlength, hmany, sweep_of_length_le_one hsorted]

theorem foldlM_pairsOfLeaf {leaves : List PoolIndex} {cells : List (Cell β C)}
    (hdistinct : leaves.Nodup) (h : List.Forall₂ (Holds o) leaves cells)
    (pairs : List (CollisionPair β)) :
    ∃ o', leaves.foldlM (pairsOfLeaf (sortAndSweep bodies axis sort)) (o, pairs) =
      some (o', pairs ++ cells.flatMap fun c => sweep bodies axis (sort.sort c.physicsObjects)) := by
  induction leaves generalizing o cells pairs with
  | nil =>
    cases h
    exact ⟨o, by simp⟩
  | cons leaf leaves ih =>
    cases h with
    | cons hleaf hleaves =>
      obtain ⟨hnotin, hdistinct⟩ := List.nodup_cons.mp hdistinct
      obtain ⟨o₁, hturn, hothers⟩ := pairsOfLeaf_spec sort hleaf pairs
      have hrest := Holds.congr_all hleaves fun j hj => hothers j fun heq => hnotin (heq ▸ hj)
      obtain ⟨o', hrun⟩ := ih hdistinct hrest _
      refine ⟨o', ?_⟩
      rw [List.foldlM_cons, hturn, Option.bind_eq_bind, Option.bind_some, hrun]
      simp

theorem flatMap_occupied (cells : List (Cell β C)) :
    (cells.filter Cell.occupied).flatMap (fun c => sweep bodies axis (sort.sort c.physicsObjects)) =
      cells.flatMap fun c => sweep bodies axis (sort.sort c.physicsObjects) := by
  induction cells with
  | nil => rfl
  | cons c cells ih =>
    by_cases hc : c.occupied = true
    · rw [List.filter_cons_of_pos hc, List.flatMap_cons, List.flatMap_cons, ih]
    · have hempty : (sort.sort c.physicsObjects).length ≤ 1 := by
        rw [(sort.perm c.physicsObjects).length_eq]
        simp [Cell.occupied] at hc
        simp [hc]
      rw [List.filter_cons_of_neg hc, List.flatMap_cons, sweep_of_length_le_one hempty, ih,
        List.nil_append]

/-- The call with sort and sweep as the secondary phase. -/
theorem findPotentialCollisionPairs_spec (settings : OctreeSettings) (o : OctreeBroadphase β C)
    (objects : List (Option β)) (pairs : List (CollisionPair β)) :
    let c := Cell.world bodies (rootBox o) objects
    let result := findPotentialCollisionPairs bodies settings (sortAndSweep bodies axis sort) o objects pairs
    (c.FitsArrays bodies settings → ∃ o', result = some (o', pairs ++ leafPairs sort settings c)) ∧
    (¬ c.FitsArrays bodies settings → result = none) := by
  obtain ⟨hfits, hover⟩ := partitionWorld_spec bodies settings o objects
  constructor
  · intro h
    obtain ⟨o₁, hpartition, hdistinct, hcells⟩ := hfits h
    obtain ⟨o', hrun⟩ := foldlM_pairsOfLeaf sort hdistinct hcells pairs
    rw [flatMap_occupied] at hrun
    refine ⟨o', ?_⟩
    simp [findPotentialCollisionPairs, hpartition, hrun, leafPairs]
  · intro h
    simp [findPotentialCollisionPairs, hover h]

end Sweep

/-- In a scene the division stays in bounds exactly when there are at most 1024 bodies
with a shape and at most 63 of the cells down to depth 3 hold more than five of them. -/
theorem sceneOctree_inBounds_iff (axis : Fin 3) (sort : LeftEdgeSort bodies axis)
    (o : OctreeBroadphase β C) (objects : List (Option β)) (pairs : List (CollisionPair β)) :
    (findPotentialCollisionPairs bodies .scene (sortAndSweep bodies axis sort) o objects
        pairs).isSome = true ↔
      (shapedBodies bodies objects).length ≤ 1024 ∧
        (Cell.world bodies (rootBox o) objects).crowdedOctants bodies .scene ≤ 63 := by
  obtain ⟨hfits, hover⟩ := findPotentialCollisionPairs_spec sort .scene o objects pairs
  have hpool : ∀ n, 1 + 8 * n ≤ poolSize ↔ n ≤ 63 := by
    intro n
    simp only [poolSize]
    omega
  constructor
  · intro h
    by_contra hnot
    have hnone := hover fun harrays => hnot ⟨harrays.objects, (hpool _).mp harrays.nodes⟩
    simp [hnone] at h
  · intro h
    obtain ⟨o', hrun⟩ := hfits ⟨h.1, (hpool _).mpr h.2⟩
    simp [hrun]

section Coincident

/-- Six unit boxes in the same place. -/
def coincident : Fin 6 → RigidBody3D ℚ := fun _ => ⟨⟨⟨0, 0, 0⟩, ⟨1, 1, 1⟩⟩, true, false, false⟩

def coincidentWorld : Cell (Fin 6) ℚ :=
  Cell.world coincident (rootBox (create : OctreeBroadphase (Fin 6) ℚ)) ((List.finRange 6).map some)

def InUnitBox (box : BoundingBox ℚ) : Prop :=
  ∀ axis, 0 ≤ box.min.get axis ∧ box.min.get axis ≤ box.max.get axis ∧ box.max.get axis ≤ 1

theorem division_inUnitBox {box : BoundingBox ℚ} (h : InUnitBox box) (i : Fin 8) :
    InUnitBox (division box i) := by
  intro axis
  obtain ⟨hlow, hmid, hhigh⟩ := h axis
  have hcenter : box.center.get axis = (box.max.get axis + box.min.get axis) / 2 := by
    fin_cases axis <;> rfl
  cases division_halves box i axis with
  | inl hhalf =>
    rw [hhalf.1, hhalf.2, hcenter]
    refine ⟨hlow, ?_, ?_⟩ <;> linarith
  | inr hhalf =>
    rw [hhalf.1, hhalf.2, hcenter]
    refine ⟨?_, ?_, hhigh⟩ <;> linarith

/-- Each of the boxes touches every cell. -/
theorem coincident_octant {c : Cell (Fin 6) ℚ} (hbox : InUnitBox c.boundingBox) (path : List (Fin 8)) :
    (c.octant coincident path).physicsObjects = c.physicsObjects := by
  induction path generalizing c with
  | nil => rfl
  | cons i path ih =>
    have hchild := division_inUnitBox hbox i
    have htouches : ∀ b ∈ c.physicsObjects,
        Cell.touches coincident (division c.boundingBox i) b = true := by
      intro b _
      refine decide_eq_true (BoundingBox.isInsideFast_of_contains
        (p := (division c.boundingBox i).min) ?_ ?_)
      · intro axis
        exact ⟨le_refl _, (hchild axis).2.1⟩
      · intro axis
        obtain ⟨hlow, hmid, hhigh⟩ := hchild axis
        have hmin : (coincident b).worldSpaceAABB.min.get axis = 0 := by fin_cases axis <;> rfl
        have hmax : (coincident b).worldSpaceAABB.max.get axis = 1 := by fin_cases axis <;> rfl
        rw [hmin, hmax]
        exact ⟨hlow, hmid.trans hhigh⟩
    exact (ih (c := c.child coincident i) hchild).trans (List.filter_eq_self.mpr htouches)

theorem sceneOctree_coincident :
    findPotentialCollisionPairs coincident .scene (sortAndSweep coincident 0 (SortBy.favour _ 0))
      create ((List.finRange 6).map some) [] = none := by
  have hbox : InUnitBox coincidentWorld.boundingBox := Vector3.forall_axis.mpr (by decide +kernel)
  have hcount : coincidentWorld.crowdedOctants coincident .scene = 585 := by
    simp only [Cell.crowdedOctants, coincident_octant hbox]
    decide +kernel
  have harrays : ¬ coincidentWorld.FitsArrays coincident .scene := by
    intro h
    have hnodes := h.nodes
    rw [hcount] at hnodes
    exact absurd hnodes (by decide)
  exact (findPotentialCollisionPairs_spec _ _ _ _ _).2 harrays

end Coincident

end Lumos.Physics
