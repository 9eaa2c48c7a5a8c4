import Lumos.Maths.FloatArithmetic

/-!
# `CollisionShape`

A shape keeps the axes and edges it hands out. Asked for them on behalf of a body it writes
over those at the front and leaves what may stand behind them.
-/
namespace Lumos.Physics.CollisionDetection

open Maths FloatArithmetic

variable {K : Type} [FloatArithmetic K]

/-! ## Hulls -/

structure HullEdge where
  vStart : Nat
  vEnd : Nat
  deriving DecidableEq

/-- The vertices and edges of a `Hull`. -/
structure Hull (K : Type) where
  vertices : List (Vector3 K)
  edges : List HullEdge

namespace Hull

def getVertex (hull : Hull K) (idx : Nat) : Vector3 K := hull.vertices.getD idx 0

def addVertex (hull : Hull K) (v : Vector3 K) : Hull K := { hull with vertices := hull.vertices ++ [v] }

def findEdge (hull : Hull K) (v0 v1 : Nat) : Option Nat :=
  hull.edges.findIdx? fun edge =>
    (edge.vStart == v0 && edge.vEnd == v1) || (edge.vStart == v1 && edge.vEnd == v0)

def constructNewEdge (hull : Hull K) (vStart vEnd : Nat) : Hull K :=
  match hull.findEdge vStart vEnd with
  | some _ => hull
  | none => { hull with edges := hull.edges ++ [⟨vStart, vEnd⟩] }

/-- `AddFace`, which goes round the edges of the face. -/
def addFace (hull : Hull K) (verts : List Nat) : Hull K :=
  (verts.foldl (fun (hull, p0) p1 => (hull.constructNewEdge p0 p1, p1)) (hull, verts.getLastD 0)).1

structure Extremes (K : Type) where
  minVertex : Nat
  maxVertex : Nat
  minCorrelation : K
  maxCorrelation : K

/-- `GetMinMaxVerticesInAxis` -/
def getMinMaxVerticesInAxis (hull : Hull K) (localAxis : Vector3 K) : Nat × Nat :=
  let found := hull.vertices.zipIdx.foldl (fun (found : Extremes K) (pos, i) =>
    let correlation := localAxis.dotProduct pos
    let found := if lt found.maxCorrelation correlation then
      { found with maxCorrelation := correlation, maxVertex := i } else found
    if le correlation found.minCorrelation then
      { found with minCorrelation := correlation, minVertex := i } else found)
    ⟨0, 0, fltMax, -fltMax⟩
  (found.minVertex, found.maxVertex)

/-- The static hull of all cuboids. -/
def cube : Hull K :=
  let corners : List (Vector3 K) :=
    [⟨-1, -1, -1⟩, ⟨-1, 1, -1⟩, ⟨1, 1, -1⟩, ⟨1, -1, -1⟩, ⟨-1, -1, 1⟩, ⟨-1, 1, 1⟩, ⟨1, 1, 1⟩, ⟨1, -1, 1⟩]
  let faces := [[0, 1, 2, 3], [7, 6, 5, 4], [5, 6, 2, 1], [0, 3, 7, 4], [6, 7, 3, 2], [4, 5, 1, 0]]
  faces.foldl addFace (corners.foldl addVertex ⟨[], []⟩)

/-- The static hull of all pyramids. -/
def pyramid : Hull K :=
  let corners : List (Vector3 K) := [⟨-1, -1, -1⟩, ⟨-1, -1, 1⟩, ⟨1, -1, 1⟩, ⟨1, -1, -1⟩, ⟨0, 1, 0⟩]
  let faces := [[0, 4, 3], [1, 4, 0], [2, 4, 1], [3, 4, 2], [0, 3, 2, 1]]
  faces.foldl addFace (corners.foldl addVertex ⟨[], []⟩)

example : (cube : Hull ℚ).edges.length = 12 := by decide

end Hull

/-! ## Shapes -/

structure CollisionEdge (K : Type) where
  posA : Vector3 K
  posB : Vector3 K

inductive ShapeData (K : Type) where
  | cuboid
  | sphere (radius : K)
  | pyramid (normals : Fin 5 → Vector3 K)
  | capsule (radius height : K)
  | hull (mesh : Hull K)

namespace ShapeData

/-- The number of axes a shape is constructed with room for. -/
def axisCount : ShapeData K → Nat
  | cuboid | hull _ => 3
  | pyramid _ => 5
  | sphere _ | capsule _ _ => 0

/-- `CollisionShapeType` -/
def type : ShapeData K → Nat
  | cuboid => 1
  | sphere _ => 2
  | pyramid _ => 3
  | capsule _ _ => 4
  | hull _ => 5

/-- The hull whose edges and vertices the shape has; a sphere and a capsule have none. -/
def toHull : ShapeData K → Hull K
  | cuboid => Hull.cube
  | pyramid _ => Hull.pyramid
  | hull mesh => mesh
  | sphere _ | capsule _ _ => ⟨[], []⟩

end ShapeData

/-- What a shape has been made with. -/
structure ShapeParameters (K : Type) where
  data : ShapeData K
  localTransform : Matrix4 K

/-! The parameters that the constructors, and the setters of the dimensions, make. -/

/-- `CuboidCollisionShape(halfdims)` -/
def ShapeParameters.cuboid (halfdims : Vector3 K) : ShapeParameters K := ⟨.cuboid, Matrix4.scaling halfdims⟩

/-- `SphereCollisionShape(radius)` -/
def ShapeParameters.sphere (radius : K) : ShapeParameters K :=
  ⟨.sphere radius, Matrix4.scaling (Vector3.fill radius)⟩

/-- `m_Normals`, as `PyramidCollisionShape(halfdims)` and `SetHalfDimensions` compute them. -/
def pyramidNormals (halfdims : Vector3 K) : Fin 5 → Vector3 K :=
  let point := fun corner => (Matrix4.scaling halfdims).apply corner
  let p0 := point ⟨-1, -1, -1⟩
  let p1 := point ⟨-1, -1, 1⟩
  let p2 := point ⟨1, -1, 1⟩
  let p3 := point ⟨1, -1, -1⟩
  let p4 := point ⟨0, 1, 0⟩
  fun
  | 0 => ((p0 - p3).crossProduct (p4 - p3)).normalize
  | 1 => ((p1 - p0).crossProduct (p4 - p0)).normalize
  | 2 => ((p2 - p1).crossProduct (p4 - p1)).normalize
  | 3 => ((p3 - p2).crossProduct (p4 - p2)).normalize
  | 4 => ⟨0, -1, 0⟩

/-- `PyramidCollisionShape(halfdims)` -/
def ShapeParameters.pyramid (halfdims : Vector3 K) : ShapeParameters K :=
  ⟨.pyramid (pyramidNormals halfdims), Matrix4.scaling halfdims⟩

/-- `PyramidCollisionShape()`, which leaves the normals as they are. -/
def ShapeParameters.defaultPyramid : ShapeParameters K :=
  ⟨.pyramid fun _ => 0, Matrix4.scaling (Vector3.fill (1 / two))⟩

structure CollisionShape (K : Type) extends ShapeParameters K where
  edges : List (CollisionEdge K)
  axes : List (Vector3 K)

structure Pose (K : Type) where
  position : Vector3 K
  orientation : Maths.Quaternion K

/-- The pose of a body and where in memory its shape is. -/
structure RigidBody3D (K : Type) extends Pose K where
  collisionShape : Nat

/-- `GetWorldSpaceTransform` -/
def Pose.worldSpaceTransform (obj : Pose K) : Matrix4 K :=
  Matrix4.ofRotation obj.orientation.rotationMatrix obj.position

namespace ShapeParameters

variable (p : ShapeParameters K) (obj : Pose K)

/-- The axes of a body with this shape: those of its faces, without any added for a test. -/
def ownAxes : List (Vector3 K) :=
  match p.data with
  | .cuboid | .hull _ => [⟨1, 0, 0⟩, ⟨0, 1, 0⟩, ⟨0, 0, 1⟩].map obj.orientation.rotationMatrix.apply
  | .pyramid normals => (List.finRange 5).map fun i => obj.orientation.rotationMatrix.apply (normals i)
  | .sphere _ | .capsule _ _ => []

def transform : Matrix4 K := obj.worldSpaceTransform.product p.localTransform

/-- The edges of a body with this shape. -/
def ownEdges : List (CollisionEdge K) :=
  p.data.toHull.edges.map fun edge =>
    ⟨(p.transform obj).apply (p.data.toHull.getVertex edge.vStart),
     (p.transform obj).apply (p.data.toHull.getVertex edge.vEnd)⟩

/-- `GetMinMaxVertexOnAxis` -/
def getMinMaxVertexOnAxis (axis : Vector3 K) : Vector3 K × Vector3 K :=
  match p.data with
  | .cuboid | .pyramid _ | .hull _ =>
    let localAxis := (p.transform obj).toMatrix3.transpose.apply axis
    let (vMin, vMax) := p.data.toHull.getMinMaxVerticesInAxis localAxis
    ((p.transform obj).apply (p.data.toHull.getVertex vMin),
     (p.transform obj).apply (p.data.toHull.getVertex vMax))
  | .sphere radius | .capsule radius _ =>
    let pos := (p.transform obj).position
    (pos - axis * radius, pos + axis * radius)

theorem length_ownAxes : (p.ownAxes obj).length = p.data.axisCount := by
  cases hdata : p.data <;> simp [ownAxes, hdata, ShapeData.axisCount]

theorem length_ownEdges : (p.ownEdges obj).length = p.data.toHull.edges.length := by
  simp [ownEdges]

end ShapeParameters

/-- Writing over the front of an array. -/
def overwrite {α : Type} (front array : List α) : List α := front ++ array.drop front.length

theorem length_overwrite {α : Type} {front array : List α} (h : front.length ≤ array.length) :
    (overwrite front array).length = array.length := by
  rw [overwrite, List.length_append, List.length_drop]
  omega

/-- All of an array that is no longer. -/
theorem overwrite_of_length {α : Type} {front array : List α} (h : array.length ≤ front.length) :
    overwrite front array = front := by
  rw [overwrite, List.drop_eq_nil_of_le h, List.append_nil]

namespace CollisionShape

def getCollisionAxes (shape : CollisionShape K) (obj : Pose K) : CollisionShape K :=
  { shape with axes := overwrite (shape.ownAxes obj) shape.axes }

def getEdges (shape : CollisionShape K) (obj : Pose K) : CollisionShape K :=
  { shape with edges := overwrite (shape.ownEdges obj) shape.edges }

/-- A new shape. -/
def create (p : ShapeParameters K) : CollisionShape K :=
  { p with
    edges := List.replicate p.data.toHull.edges.length ⟨0, 0⟩
    axes := List.replicate p.data.axisCount 0 }

/-- The setters of the dimensions, and `BuildFromMesh`: the edges are resized. -/
def setParameters (shape : CollisionShape K) (p : ShapeParameters K) : CollisionShape K :=
  { p with
    edges := (List.range p.data.toHull.edges.length).map fun i => shape.edges.getD i ⟨0, 0⟩
    axes := shape.axes }

end CollisionShape

end Lumos.Physics.CollisionDetection
