import Mathlib.Logic.Function.Basic
import Lumos.Physics.CollisionShape

/-!
# `CollisionDetection::CheckCollision`

The shapes are in a memory that the checks write to. The axes to test are collected in the
cached axes of one of the two shapes.
-/
namespace Lumos.Physics.CollisionDetection

open Maths FloatArithmetic

variable {K : Type} [FloatArithmetic K]

structure CollisionData (K : Type) where
  penetration : K
  normal : Vector3 K
  pointOnPlane : Vector3 K
  deriving DecidableEq

abbrev Shapes (K : Type) := Nat → CollisionShape K

/-- Changes one shape. -/
def modify (shapes : Shapes K) (ref : Nat) (f : CollisionShape K → CollisionShape K) : Shapes K :=
  Function.update shapes ref (f (shapes ref))

def checkCollisionAxis (axis : Vector3 K) (obj1 obj2 : Pose K) (shape1 shape2 : ShapeParameters K) :
    Option (CollisionData K) :=
  let (min1, max1) := shape1.getMinMaxVertexOnAxis obj1 axis
  let (min2, max2) := shape2.getMinMaxVertexOnAxis obj2 axis
  let minCorrelation1 := axis.dotProduct min1
  let maxCorrelation1 := axis.dotProduct max1
  let minCorrelation2 := axis.dotProduct min2
  let maxCorrelation2 := axis.dotProduct max2
  if le minCorrelation1 minCorrelation2 && le minCorrelation2 maxCorrelation1 then
    let penetration := minCorrelation2 - maxCorrelation1
    some ⟨penetration, axis, max1 + axis * penetration⟩
  else if le minCorrelation2 minCorrelation1 && lt minCorrelation1 maxCorrelation2 then
    let penetration := minCorrelation1 - maxCorrelation2
    some ⟨penetration, -axis, min1 + -axis * penetration⟩
  else none

/-- The loop over the axes: no collision if one of them separates the bodies, otherwise the
data of the best of them, where `better` compares the penetrations. -/
def testAxes (better : K → K → Bool) (obj1 obj2 : Pose K) (shape1 shape2 : ShapeParameters K) :
    CollisionData K → List (Vector3 K) → Option (CollisionData K)
  | best, [] => some best
  | best, axis :: axes =>
    match checkCollisionAxis axis obj1 obj2 shape1 shape2 with
    | none => none
    | some cur =>
      testAxes better obj1 obj2 shape1 shape2
        (if better cur.penetration best.penetration then cur else best) axes

/-- `best_colData` at first. -/
def CollisionData.worst : CollisionData K := ⟨-fltMax, 0, 0⟩

def checkSphereCollision (shapes : Shapes K) (obj1 obj2 : RigidBody3D K) : Option (CollisionData K) :=
  checkCollisionAxis (obj2.position - obj1.position).normalize obj1.toPose obj2.toPose
    (shapes obj1.collisionShape).toShapeParameters (shapes obj2.collisionShape).toShapeParameters

/-- Too short to be an axis. -/
def degenerate (axis : Vector3 K) : Bool := lt axis.lengthSquared epsilon

def parallel (axis pAxis : Vector3 K) : Bool := le (1 - epsilon) (fabs (axis.dotProduct pAxis))

/-- `AddPossibleCollisionAxis` of an axis that is not stored anywhere. -/
def addPossibleCollisionAxis (axes : List (Vector3 K)) (axis : Vector3 K) : List (Vector3 K) :=
  if degenerate axis then axes
  else if axes.any (parallel axis.normalize) then axes
  else axes ++ [axis.normalize]

/-- `AddPossibleCollisionAxis` to the axes of one shape of an axis of a shape, which is
normalised where it stands. -/
def addAxisOf (shapes : Shapes K) (ref axesOf : Nat) (axis : Vector3 K × Nat) : Shapes K :=
  if degenerate axis.1 then shapes
  else
    let shapes := modify shapes axesOf fun shape =>
      { shape with axes := shape.axes.set axis.2 axis.1.normalize }
    modify shapes ref fun shape =>
      { shape with
        axes := if shape.axes.any (parallel axis.1.normalize) then shape.axes
          else shape.axes ++ [axis.1.normalize] }

structure Closest (K : Type) where
  point : Vector3 K
  distsq : K

def closestPointOnEdge (target : Vector3 K) (edge : CollisionEdge K) : Vector3 K :=
  let aT := target - edge.posA
  let ab := edge.posB - edge.posA
  let distance := aT.dotProduct ab / ab.dotProduct ab
  if lt distance 0 then edge.posA
  else if lt 1 distance then edge.posB
  else edge.posA + ab * distance

def getClosestPointOnEdges (target : Vector3 K) (edges : List (CollisionEdge K)) : Vector3 K :=
  (edges.foldl (fun (closest : Closest K) edge =>
    let point := closestPointOnEdge target edge
    let ct := target - point
    let distsq := ct.dotProduct ct
    if lt distsq closest.distsq then ⟨point, distsq⟩ else closest) ⟨0, fltMax⟩).point

/-- The axis of a pair of edges. -/
def edgeAxis (edge1 edge2 : CollisionEdge K) : Vector3 K :=
  (edge1.posB - edge1.posA).normalize.crossProduct (edge2.posB - edge2.posA).normalize

/-- The loop over the pairs of edges. -/
def addEdgeAxes (axes : List (Vector3 K)) (edges1 edges2 : List (CollisionEdge K)) : List (Vector3 K) :=
  edges1.foldl (fun axes edge1 =>
    edges2.foldl (fun axes edge2 => addPossibleCollisionAxis axes (edgeAxis edge1 edge2)) axes) axes

/-- The axis from the closest point on the edges to the centre of the sphere. -/
def sphereAxis (sphereObj : Pose K) (edges : List (CollisionEdge K)) : Vector3 K :=
  (sphereObj.position - getClosestPointOnEdges sphereObj.position edges).normalize

/-- The body whose shape is the sphere, or is taken for it, comes second. -/
def complexAndSphere (shapes : Shapes K) (obj1 obj2 : RigidBody3D K) : RigidBody3D K × RigidBody3D K :=
  if (shapes obj1.collisionShape).data.type = 2 then (obj2, obj1) else (obj1, obj2)

def checkPolyhedronSphereCollision (shapes : Shapes K) (obj1 obj2 : RigidBody3D K) :
    Option (CollisionData K) × Shapes K :=
  let (complexObj, sphereObj) := complexAndSphere shapes obj1 obj2
  let shapes := modify shapes complexObj.collisionShape fun shape =>
    let shape := (shape.getCollisionAxes complexObj.toPose).getEdges complexObj.toPose
    { shape with axes := addPossibleCollisionAxis shape.axes (sphereAxis sphereObj.toPose shape.edges) }
  (testAxes (fun cur best => lt best cur) obj1.toPose obj2.toPose (shapes obj1.collisionShape).toShapeParameters
    (shapes obj2.collisionShape).toShapeParameters .worst (shapes complexObj.collisionShape).axes, shapes)

/-- `GetCollisionAxes` of both shapes. -/
def refreshAxes (shapes : Shapes K) (obj1 obj2 : RigidBody3D K) : Shapes K :=
  let shapes := modify shapes obj1.collisionShape fun shape => shape.getCollisionAxes obj1.toPose
  modify shapes obj2.collisionShape fun shape => shape.getCollisionAxes obj2.toPose

/-- `GetEdges` of both shapes. -/
def refreshEdges (shapes : Shapes K) (obj1 obj2 : RigidBody3D K) : Shapes K :=
  let shapes := modify shapes obj1.collisionShape fun shape => shape.getEdges obj1.toPose
  modify shapes obj2.collisionShape fun shape => shape.getEdges obj2.toPose

/-- The first half of `CheckPolyhedronCollision`: the axes of both shapes in the cache of the
first. -/
def collectAxes (shapes : Shapes K) (obj1 obj2 : RigidBody3D K) : Shapes K :=
  let shapes := refreshAxes shapes obj1 obj2
  (shapes obj2.collisionShape).axes.zipIdx.foldl
    (fun shapes axis => addAxisOf shapes obj1.collisionShape obj2.collisionShape axis) shapes

/-- The second half: those of the pairs of edges as well. -/
def collectEdgeAxes (shapes : Shapes K) (obj1 obj2 : RigidBody3D K) : Shapes K :=
  let shapes := refreshEdges shapes obj1 obj2
  modify shapes obj1.collisionShape fun shape =>
    { shape with
      axes := addEdgeAxes shape.axes (shapes obj1.collisionShape).edges (shapes obj2.collisionShape).edges }

def checkPolyhedronCollision (shapes : Shapes K) (obj1 obj2 : RigidBody3D K) :
    Option (CollisionData K) × Shapes K :=
  let shapes := collectEdgeAxes (collectAxes shapes obj1 obj2) obj1 obj2
  (testAxes (fun cur best => le best cur) obj1.toPose obj2.toPose (shapes obj1.collisionShape).toShapeParameters
    (shapes obj2.collisionShape).toShapeParameters .worst (shapes obj1.collisionShape).axes, shapes)

/-- Which of the functions in the table. -/
inductive CheckFunction where
  | sphere
  | polyhedron
  | polyhedronSphere
  | invalid
  deriving DecidableEq

/-- `m_CollisionCheckFunctions`, an array of 7. -/
def collisionCheckFunctions : Nat → Option CheckFunction
  | 1 | 5 => some .polyhedron
  | 2 => some .sphere
  | 3 => some .polyhedronSphere
  | 0 | 4 | 6 => some .invalid
  | _ => none

def checkFunction (shapes : Shapes K) (obj1 obj2 : RigidBody3D K) : Option CheckFunction :=
  collisionCheckFunctions
    ((shapes obj1.collisionShape).data.type ||| (shapes obj2.collisionShape).data.type)

/-- `CheckCollision`, for the shapes the bodies have: no data where it returns false, and a
fault where it reads past the end of the table. -/
def checkCollision (shapes : Shapes K) (obj1 obj2 : RigidBody3D K) :
    Option (Option (CollisionData K) × Shapes K) :=
  match checkFunction shapes obj1 obj2 with
  | some .sphere => some (checkSphereCollision shapes obj1 obj2, shapes)
  | some .polyhedron => some (checkPolyhedronCollision shapes obj1 obj2)
  | some .polyhedronSphere => some (checkPolyhedronSphereCollision shapes obj1 obj2)
  | some .invalid => some (none, shapes)
  | none => none

end Lumos.Physics.CollisionDetection
