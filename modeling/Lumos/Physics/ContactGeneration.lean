import Lumos.Maths.Inverses
import Lumos.Physics.CollisionDetection
import Lumos.Physics.HullIncidence
import Lumos.Physics.ManifoldContacts
import Lumos.Physics.PolygonClipping

/-!
# `BuildCollisionManifold`

Two bodies that collide hand out the faces that look at each other, with the planes round them.
One of the faces is clipped by the planes of the other, and the vertices that are left become
contacts. All of it is in arrays of eight entries, with nothing that looks at their size.
-/
namespace Lumos.Maths

open FloatArithmetic

variable {K : Type} [FloatArithmetic K]

/-- `Plane()` -/
def Plane.zero : Plane K := ⟨0, 0, 0⟩

end Lumos.Maths

namespace Lumos.Physics.ContactGeneration

open Maths FloatArithmetic FixedArray CollisionDetection
open HullMesh (HullFace HullEdge Call run)
open Physics.Dynamics (Manifold Offer)

variable {K : Type}

/-! ## Shapes with faces -/

/-- A shape with the hull it has, or none of its own. -/
structure FacedShape (K : Type) [FloatArithmetic K] extends ShapeParameters K where
  hull : HullMesh.Hull K
  toShape_hull : hull.toShape = data.toHull

section Shapes

variable [FloatArithmetic K]

/-- `ConstructCubeHull` -/
def cubeCalls : List (Call K) :=
  [.addVertex ⟨-1, -1, -1⟩, .addVertex ⟨-1, 1, -1⟩, .addVertex ⟨1, 1, -1⟩, .addVertex ⟨1, -1, -1⟩,
    .addVertex ⟨-1, -1, 1⟩, .addVertex ⟨-1, 1, 1⟩, .addVertex ⟨1, 1, 1⟩, .addVertex ⟨1, -1, 1⟩,
    .addFace ⟨0, 0, -1⟩ [0, 1, 2, 3], .addFace ⟨0, 0, 1⟩ [7, 6, 5, 4], .addFace ⟨0, 1, 0⟩ [5, 6, 2, 1],
    .addFace ⟨0, -1, 0⟩ [0, 3, 7, 4], .addFace ⟨1, 0, 0⟩ [6, 7, 3, 2], .addFace ⟨-1, 0, 0⟩ [4, 5, 1, 0]]

/-- `ConstructPyramidHull` -/
def pyramidCalls : List (Call K) :=
  let v0 : Vector3 K := ⟨-1, -1, -1⟩
  let v1 : Vector3 K := ⟨-1, -1, 1⟩
  let v2 : Vector3 K := ⟨1, -1, 1⟩
  let v3 : Vector3 K := ⟨1, -1, -1⟩
  let v4 : Vector3 K := ⟨0, 1, 0⟩
  [.addVertex v0, .addVertex v1, .addVertex v2, .addVertex v3, .addVertex v4,
    .addFace ((v0 - v3).crossProduct (v4 - v3)).normalize [0, 4, 3],
    .addFace ((v1 - v0).crossProduct (v4 - v0)).normalize [1, 4, 0],
    .addFace ((v2 - v1).crossProduct (v4 - v1)).normalize [2, 4, 1],
    .addFace ((v3 - v2).crossProduct (v4 - v2)).normalize [3, 4, 2],
    .addFace ⟨0, -1, 0⟩ [0, 3, 2, 1]]

/-- What the loops of `BuildFromMesh` add for the triangles of the index buffer. -/
def triangleCalls (normals : Nat → Vector3 K) : List Nat → List (Call K)
  | i :: j :: k :: indices =>
    .addFace (normals i + normals j + normals k).normalize [i, j, k] :: triangleCalls normals indices
  | _ => []

/-- `BuildFromMesh` -/
def buildFromMesh (vertices : List (Vector3 K × Vector3 K)) (indices : List Nat) : HullMesh.Hull K :=
  let normals := fun i => (vertices.map Prod.snd).getD i 0
  run (vertices.map (fun vertex => .addVertex vertex.1) ++ triangleCalls normals indices)

theorem toShape_run (calls : List (Call K)) (h : HullMesh.Hull K) :
    (calls.foldl HullMesh.Hull.call h).toShape = calls.foldl (fun hull call =>
      match call with
      | .addVertex v => hull.addVertex v
      | .addFace _ verts => hull.addFace verts) h.toShape := by
  induction calls generalizing h with
  | nil => rfl
  | cons call calls ih =>
    rw [List.foldl_cons, List.foldl_cons, ih]
    cases call with
    | addVertex v => rw [HullMesh.Hull.call, HullMesh.toShape_addVertex]
    | addFace normal verts => rw [HullMesh.Hull.call, HullMesh.toShape_addFace]

theorem toShape_cube : (run cubeCalls : HullMesh.Hull K).toShape = Hull.cube := by
  rw [run, toShape_run]
  rfl

theorem toShape_pyramid : (run pyramidCalls : HullMesh.Hull K).toShape = Hull.pyramid := by
  rw [run, toShape_run]
  rfl

namespace FacedShape

/-- `CuboidCollisionShape(halfdims)` -/
def cuboid (halfdims : Vector3 K) : FacedShape K where
  toShapeParameters := .cuboid halfdims
  hull := run cubeCalls
  toShape_hull := toShape_cube

/-- `PyramidCollisionShape(halfdims)` -/
def pyramid (halfdims : Vector3 K) : FacedShape K where
  toShapeParameters := .pyramid halfdims
  hull := run pyramidCalls
  toShape_hull := toShape_pyramid

/-- `SphereCollisionShape(radius)` -/
def sphere (radius : K) : FacedShape K where
  toShapeParameters := .sphere radius
  hull := HullMesh.Hull.empty
  toShape_hull := rfl

/-- `HullCollisionShape()`, and the half dimensions it is given. -/
def mesh (hull : HullMesh.Hull K) (halfdims : Vector3 K) : FacedShape K where
  data := .hull hull.toShape
  localTransform := .scaling halfdims
  hull := hull
  toShape_hull := rfl

end FacedShape

end Shapes

/-! ## `GetIncidentReferencePolygon` -/

/-- The arrays with their counts. -/
structure ReferencePolygon (K : Type) where
  faces : List (Vector3 K) × Nat
  adjacentPlanes : List (Plane K) × Nat
  normal : Vector3 K

section Polygon

variable [FloatArithmetic K]

def ReferencePolygon.create : ReferencePolygon K := ⟨(List.replicate 8 0, 0), (List.replicate 8 .zero, 0), 0⟩

/-- The faces at a vertex. -/
def enclosingFaces (hull : HullMesh.Hull K) (idx : Nat) : List (HullFace K) :=
  ((hull.vertices[idx]?).elim [] HullMesh.HullVertex.enclosingFaces).filterMap fun faceIdx => hull.faces[faceIdx]?

/-- The loop over them. -/
def bestFace (localAxis : Vector3 K) (faces : List (HullFace K)) : Option (HullFace K) :=
  (faces.foldl (fun best face =>
    let tempCorrelation := localAxis.dotProduct face.normal
    if lt best.1 tempCorrelation then (tempCorrelation, some face) else best) (-fltMax, none)).2

/-- The plane of a face through a point, with its normal to the inside. -/
def facePlane (normalMatrix : Matrix3 K) (normal wsPointOnPlane : Vector3 K) : Plane K :=
  let planeNrml := (-normalMatrix.apply normal).normalize
  .ofDistance planeNrml (-planeNrml.dotProduct wsPointOnPlane)

/-- Where a body with this shape has a vertex of the hull. -/
def wsVertex (shape : FacedShape K) (obj : Pose K) (idx : Nat) : Vector3 K :=
  (shape.transform obj).apply (shape.hull.toShape.getVertex idx)

/-- The other faces at an edge of a face, each with the start of the edge. -/
def adjacentAt (hull : HullMesh.Hull K) (face : HullFace K) (edgeIdx : Nat) : List (Nat × HullFace K) :=
  (hull.edges[edgeIdx]?).elim [] fun edge =>
    (edge.enclosingFaces.filter (· ≠ face.idx)).filterMap fun adjFaceIdx =>
      (hull.faces[adjFaceIdx]?).map fun adjFace => (edge.vStart, adjFace)

/-- The planes in the order in which they are put into the array. -/
def adjacentPlanes (shape : FacedShape K) (obj : Pose K) (face : HullFace K) : List (Plane K) :=
  let normalMatrix := (shape.transform obj).toMatrix3.inverse.transpose
  let firstVertex := (face.edgeIds.head?.bind fun edgeIdx => shape.hull.edges[edgeIdx]?).elim 0 HullEdge.vStart
  facePlane normalMatrix face.normal (wsVertex shape obj firstVertex) ::
    (face.edgeIds.flatMap (adjacentAt shape.hull face)).map fun adjacent =>
      facePlane normalMatrix adjacent.2.normal (wsVertex shape obj adjacent.1)

/-- The face with the greatest correlation at the vertex that is furthest along an axis. -/
def facing (shape : FacedShape K) (obj : Pose K) (axis : Vector3 K) : Option (HullFace K) :=
  let localAxis := (shape.transform obj).toMatrix3.inverse.apply axis
  bestFace localAxis (enclosingFaces shape.hull (shape.hull.toShape.getMinMaxVerticesInAxis localAxis).2)

/-- It fails where an entry is written behind one of the arrays. -/
def getIncidentReferencePolygon (shape : FacedShape K) (obj : Pose K) (axis : Vector3 K) :
    Option (ReferencePolygon K) :=
  let refPolygon := ReferencePolygon.create
  match shape.data with
  | .sphere radius | .capsule radius _ =>
    some { refPolygon with
      faces := (refPolygon.faces.1.set 0 (obj.position + axis * radius), 1)
      normal := axis }
  | .cuboid | .pyramid _ | .hull _ =>
    match facing shape obj axis with
    | none => some { refPolygon with normal := refPolygon.normal.normalize }
    | some face => do
      let normalMatrix := (shape.transform obj).toMatrix3.inverse.transpose
      let faces ← (face.vertIds.map (wsVertex shape obj)).foldlM store refPolygon.faces
      let planes ← (adjacentPlanes shape obj face).foldlM store refPolygon.adjacentPlanes
      some ⟨faces, planes, (normalMatrix.apply face.normal).normalize⟩

end Polygon

/-! ## The manifold -/

section Manifolds

variable {n : Nat} [FloatInfinity K] (coldata : CollisionData K)

/-- The local variables of the branch for two faces. -/
structure Clipping (K : Type) where
  flipped : Bool
  incPolygon : List (Vector3 K) × Nat
  refAdjPlanes : List (Plane K) × Nat
  refPlane : Plane K

/-- The reference is the face that is closer to parallel. -/
def chooseReference (poly1 poly2 : ReferencePolygon K) : Clipping K :=
  if lt (fabs (coldata.normal.dotProduct poly2.normal)) (fabs (coldata.normal.dotProduct poly1.normal)) then
    { flipped := false
      incPolygon := poly2.faces
      refAdjPlanes := poly1.adjacentPlanes
      refPlane := .ofDistance (-poly1.normal) (-(poly1.faces.1.headD 0).dotProduct (-poly1.normal)) }
  else
    { flipped := true
      incPolygon := poly1.faces
      refAdjPlanes := poly2.adjacentPlanes
      refPlane := .ofDistance (-poly2.normal) (-(poly2.faces.1.headD 0).dotProduct (-poly2.normal)) }

/-- The arguments of `AddContact` for a vertex that is left. -/
def contactAt (bodies : Fin n → Dynamics.RigidBody3D K) (flipped : Bool) (poly1 poly2 : ReferencePolygon K)
    (endPoint : Vector3 K) : Offer n K :=
  if flipped then
    let contactPenetration :=
      -(endPoint.dotProduct coldata.normal - coldata.normal.dotProduct (poly2.faces.1.headD 0))
    ⟨bodies, endPoint + coldata.normal * contactPenetration, endPoint, coldata.normal, contactPenetration⟩
  else
    let contactPenetration := endPoint.dotProduct coldata.normal - coldata.normal.dotProduct (poly1.faces.1.headD 0)
    ⟨bodies, endPoint, endPoint - coldata.normal * contactPenetration, coldata.normal, contactPenetration⟩

/-- It fails where an entry is written behind one of the arrays. -/
def buildCollisionManifold (bodies : Fin n → Dynamics.RigidBody3D K) (obj1 obj2 : Fin n) (shape1 shape2 : FacedShape K)
    (manifold : Manifold n K) : Option (Bool × Manifold n K) := do
  let poly1 ← getIncidentReferencePolygon shape1 (bodies obj1).toPose coldata.normal
  let poly2 ← getIncidentReferencePolygon shape2 (bodies obj2).toPose (-coldata.normal)
  if poly1.faces.2 = 0 ∨ poly2.faces.2 = 0 then
    some (false, manifold)
  else if poly1.faces.2 = 1 then
    let face := poly1.faces.1.headD 0
    let manifold ← manifold.addContact
      ⟨bodies, face, face - coldata.normal * coldata.penetration, coldata.normal, coldata.penetration⟩
    some (true, manifold)
  else if poly2.faces.2 = 1 then
    let face := poly2.faces.1.headD 0
    let manifold ← manifold.addContact
      ⟨bodies, face + coldata.normal * coldata.penetration, face, coldata.normal, coldata.penetration⟩
    some (true, manifold)
  else
    let clipping := chooseReference coldata poly1 poly2
    let incPolygon ← sutherlandHodgesonClipping clipping.incPolygon.1 clipping.incPolygon.2
      (clipping.refAdjPlanes.1.take clipping.refAdjPlanes.2) false
    let incPolygon ← sutherlandHodgesonClipping incPolygon.1 incPolygon.2 [clipping.refPlane] true
    let manifold ← ((incPolygon.1.take incPolygon.2).map (contactAt coldata bodies clipping.flipped poly1 poly2)).foldlM
      Manifold.addContact manifold
    some (true, manifold)

end Manifolds

end Lumos.Physics.ContactGeneration
