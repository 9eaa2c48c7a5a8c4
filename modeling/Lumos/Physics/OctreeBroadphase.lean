import Mathlib.Data.Fin.VecNotation
import Mathlib.Data.List.FinRange
import Mathlib.Logic.Function.Basic
import Lumos.Library.FixedArray
import Lumos.Physics.Broadphase

/-!
# `OctreeBroadphase`

The node pool, its nodes and the leaf list are arrays of fixed size. A write behind the
end of one of them is out of bounds and faults.
-/
namespace Lumos.Physics

open Maths OrderedPairs FixedArray

variable {β C : Type}

/-- `MAX_OBJECTS_PER_NODE` -/
def maxObjectsPerNode : Nat := 1024

/-- `MAX_PARTITION_DEPTH` cubed -/
def poolSize : Nat := 8 * 8 * 8

abbrev PoolIndex := Fin poolSize

/-- The arrays hold their entries in use, `ChildCount` and `PhysicsObjectCount` of them. -/
structure OctreeNode (β C : Type) where
  index : PoolIndex
  childNodeIndices : List PoolIndex
  physicsObjects : List (Option β)
  boundingBox : BoundingBox C

/-- The constructor's arguments, next to the secondary broadphase. -/
structure OctreeSettings where
  maxObjectsPerPartition : Nat
  maxPartitionDepth : Nat

/-- `OctreeBroadphase(5, 3, …)`, as `Scene::OnInit` sets it up. -/
def OctreeSettings.scene : OctreeSettings := ⟨5, 3⟩

structure OctreeBroadphase (β C : Type) where
  currentPoolIndex : Nat
  nodePool : PoolIndex → OctreeNode β C
  leaves : List PoolIndex

/-- Lower and upper corner of each division, axis by axis. -/
def divisionPointIndices : Fin 8 → Fin 6 → Fin 3 :=
  ![![0, 0, 0, 1, 1, 1],
    ![1, 0, 0, 2, 1, 1],
    ![0, 1, 0, 1, 2, 1],
    ![1, 1, 0, 2, 2, 1],
    ![0, 0, 1, 1, 1, 2],
    ![1, 0, 1, 2, 1, 2],
    ![0, 1, 1, 1, 2, 2],
    ![1, 1, 1, 2, 2, 2]]

namespace OctreeBroadphase

/-- `m_NodePool[0]` -/
def root : PoolIndex := ⟨0, by decide⟩

variable [Coordinate C]

/-- The division points of a box between which its divisions lie. -/
def divisionPoints (box : BoundingBox C) : Fin 3 → Vector3 C := ![box.min, box.center, box.max]

/-- The bounding box of the `i`th child. -/
def division (box : BoundingBox C) (i : Fin 8) : BoundingBox C :=
  let corner (x y z : Fin 3) : Vector3 C :=
    ⟨(divisionPoints box x).x, (divisionPoints box y).y, (divisionPoints box z).z⟩
  let indices := divisionPointIndices i
  ⟨corner (indices 0) (indices 1) (indices 2), corner (indices 3) (indices 4) (indices 5)⟩

/-- The constructor. -/
def create : OctreeBroadphase β C where
  currentPoolIndex := 0
  nodePool := fun _ => ⟨root, [], [], BoundingBox.create⟩
  leaves := []

variable (bodies : β → RigidBody3D C)

/-- "Reset nodes", which leaves every bounding box as it is. -/
def reset (o : OctreeBroadphase β C) : OctreeBroadphase β C where
  currentPoolIndex := 1
  nodePool := fun i => ⟨root, [], [], (o.nodePool i).boundingBox⟩
  leaves := []

/-- One turn of the loop over the rigid bodies. -/
def addObject (o : OctreeBroadphase β C) : Option β → Option (OctreeBroadphase β C)
  | none => some o
  | some body =>
    if (bodies body).hasCollisionShape then do
      let node := o.nodePool root
      let physicsObjects ← push maxObjectsPerNode node.physicsObjects (some body)
      some { o with
        nodePool := Function.update o.nodePool root { node with
          boundingBox := node.boundingBox.merge (bodies body).worldSpaceAABB
          physicsObjects } }
    else some o

/-- "Add Leaf" -/
def addLeaf (k : PoolIndex) (o : OctreeBroadphase β C) : Option (OctreeBroadphase β C) :=
  if (o.nodePool k).physicsObjects.length ≠ 0 then do
    let leaves ← push poolSize o.leaves (o.nodePool k).index
    some { o with leaves }
  else some o

/-- One turn of "Add objects inside division". -/
def addInside (box : BoundingBox C) (physicsObjects : List (Option β)) (physicsObject : Option β) :
    Option (List (Option β)) := do
  let body ← physicsObject
  if box.isInsideFast (bodies body).worldSpaceAABB ≠ .outside then
    push maxObjectsPerNode physicsObjects physicsObject
  else some physicsObjects

/-- "Create Child" number `i` of node `k`, up to the call that divides it. -/
def createChild (k : PoolIndex) (i : Fin 8) (o : OctreeBroadphase β C) :
    Option (PoolIndex × OctreeBroadphase β C) :=
  if h : o.currentPoolIndex < poolSize then do
    let newIndex : PoolIndex := ⟨o.currentPoolIndex, h⟩
    let node := o.nodePool k
    let childNodeIndices ← push 8 node.childNodeIndices newIndex
    let boundingBox := division node.boundingBox i
    let physicsObjects ← node.physicsObjects.foldlM (addInside bodies boundingBox) []
    let nodePool := Function.update o.nodePool k { node with childNodeIndices }
    let newNode := { index := newIndex, childNodeIndices := [], physicsObjects, boundingBox }
    some (newIndex, { o with
      currentPoolIndex := o.currentPoolIndex + 1
      nodePool := Function.update nodePool newIndex newNode })
  else none

/-- One turn of the loop over the divisions of node `k`. -/
def divideChild (divideNode : PoolIndex → OctreeBroadphase β C → Option (OctreeBroadphase β C))
    (k : PoolIndex) (o : OctreeBroadphase β C) (i : Fin 8) : Option (OctreeBroadphase β C) := do
  let (child, o) ← createChild bodies k i o
  divideNode child o

/-- `Divide` of node `k` at an iteration from which on `levels` divisions are left:
`m_MaxPartitionDepth + 1 - iteration` of them. -/
def divide (maxObjectsPerPartition : Nat) :
    Nat → PoolIndex → OctreeBroadphase β C → Option (OctreeBroadphase β C)
  | 0, k, o => addLeaf k o
  | levels + 1, k, o =>
    if (o.nodePool k).physicsObjects.length ≤ maxObjectsPerPartition then addLeaf k o
    else (List.finRange 8).foldlM (divideChild bodies (divide maxObjectsPerPartition levels) k) o

/-- "Recursively divide world", from the bodies to the leaves. -/
def partitionWorld (settings : OctreeSettings) (o : OctreeBroadphase β C)
    (objects : List (Option β)) : Option (OctreeBroadphase β C) := do
  let o ← objects.foldlM (addObject bodies) o.reset
  divide bodies settings.maxObjectsPerPartition (settings.maxPartitionDepth + 1) root o

/-- One turn of "Add collision pairs in leaf world divisions". -/
def pairsOfLeaf (secondaryBroadphase : Broadphase β)
    (s : OctreeBroadphase β C × List (CollisionPair β)) (leaf : PoolIndex) :
    Option (OctreeBroadphase β C × List (CollisionPair β)) :=
  let node := s.1.nodePool leaf
  if node.physicsObjects.length > 1 then do
    let (physicsObjects, collisionPairs) ← secondaryBroadphase node.physicsObjects s.2
    some ({ s.1 with nodePool := Function.update s.1.nodePool leaf { node with physicsObjects } },
      collisionPairs)
  else some s

def findPotentialCollisionPairs (settings : OctreeSettings) (secondaryBroadphase : Broadphase β)
    (o : OctreeBroadphase β C) (objects : List (Option β)) (collisionPairs : List (CollisionPair β)) :
    Option (OctreeBroadphase β C × List (CollisionPair β)) := do
  let o ← partitionWorld bodies settings o objects
  o.leaves.foldlM (pairsOfLeaf secondaryBroadphase) (o, collisionPairs)

end OctreeBroadphase

end Lumos.Physics
