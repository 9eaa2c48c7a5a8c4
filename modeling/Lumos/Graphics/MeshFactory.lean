import Lumos.Library.FloatRounding
import Lumos.Maths.FloatGeometry

/-!
# `MeshFactory`

Spheres, capsules and cylinders are made of rows of vertices, with one more of them than there
are segments, and two triangles for each cell between two rows. The numbers of segments of a
sphere are compared as floats, and its indices wrap.
-/
namespace Lumos.Graphics.MeshFactory

open Maths FloatArithmetic FloatLiterals

class FloatTrigonometry (K : Type) extends FloatInfinity K where
  sinf : K → K
  cosf : K → K
  /-- `M_PI` -/
  pi : K

open FloatTrigonometry

structure Vertex (K : Type) where
  position : Vector3 K
  texCoords : Vector2 K
  normal : Vector3 K

structure Mesh (K : Type) where
  vertices : List (Vertex K)
  indices : List Nat
  boundingBox : BoundingBox K

section Meshes

variable {K : Type} [FloatTrigonometry K]

/-- The end of each of the functions. -/
def finish (data : List (Vertex K)) (indices : List Nat) : Mesh K where
  vertices := data
  indices := indices
  boundingBox := data.foldl (fun box vertex => box.mergePoint vertex.position) .cleared

/-! ## Spheres -/

/-- The float next to a whole number. -/
def toFloat (n : Nat) : Nat := Library.FloatRounding.round 24 n

/-- The turns of `for (int i = 0; i <= count; ++i)` with a float `count`. -/
def turnsTo (count : Nat) : List Nat := (List.range (2 * count + 1)).takeWhile fun i => toFloat i ≤ count

/-- Those of `for (uint32_t i = 0; i < count; ++i)`. -/
def turnsBelow (count : Nat) : List Nat := (List.range count).takeWhile fun i => toFloat i < count

def sphereVertex (sectorCount stackCount i j : Nat) : Vertex K :=
  let sectorStep : K := two * pi / literal sectorCount
  let stackStep : K := pi / literal stackCount
  let radius : K := 1
  let stackAngle := pi / two - literal i * stackStep
  let xy := radius * cosf stackAngle
  let z := radius * sinf stackAngle
  let sectorAngle := literal j * sectorStep
  let x := xy * cosf sectorAngle
  let y := xy * sinf sectorAngle
  let s := literal j / literal sectorCount
  let t := literal i / literal stackCount
  ⟨⟨x, y, z⟩, ⟨s, t⟩, (⟨x, y, z⟩ : Vector3 K).normalize⟩

/-- The two triangles of a sector, without the degenerate ones of the first and last stack. -/
def sphereIndices (sectorCount stackCount i j : Nat) : List Nat :=
  let k1 := i * (sectorCount + 1) + j
  let k2 := i * (sectorCount + 1) + sectorCount + 1 + j
  let indices := (if i ≠ 0 then [k1, k2, k1 + 1] else []) ++
    (if toFloat i ≠ toFloat (stackCount - 1) then [k1 + 1, k2, k2 + 1] else [])
  indices.map (· % 2 ^ 32)

def createSphere (xSegments ySegments : Nat) : Mesh K :=
  let sectorCount := toFloat xSegments
  let stackCount := toFloat ySegments
  finish
    ((turnsTo stackCount).flatMap fun i => (turnsTo sectorCount).map fun j => sphereVertex sectorCount stackCount i j)
    ((turnsBelow stackCount).flatMap fun i =>
      (turnsBelow sectorCount).flatMap fun j => sphereIndices sectorCount stackCount i j)

/-! ## Rows of vertices -/

/-- The variables of the loops. -/
structure Builder (K : Type) where
  data : List (Vertex K)
  indices : List Nat
  point : Nat
  thisrow : Nat
  prevrow : Nat

namespace Builder

def empty : Builder K := ⟨[], [], 0, 0, 0⟩

def emplaceBack (vertex : Vertex K) (s : Builder K) : Builder K :=
  { s with data := s.data ++ [vertex], point := s.point + 1 }

def pushIndices (indices : List Nat) (s : Builder K) : Builder K := { s with indices := s.indices ++ indices }

/-- One turn of the loop over the vertices of a row. -/
def addPoint (vertexAt : Nat → Vertex K) (j : Nat) (s : Builder K) (i : Nat) : Builder K :=
  let s := s.emplaceBack (vertexAt i)
  if i > 0 ∧ j > 0 then
    s.pushIndices [s.thisrow + i - 1, s.prevrow + i, s.prevrow + i - 1,
      s.thisrow + i - 1, s.thisrow + i, s.prevrow + i]
  else s

/-- One turn of the loop over the rows. -/
def addRow (vertexAt : Nat → Nat → Vertex K) (radialSegments : Nat) (s : Builder K) (j : Nat) : Builder K :=
  let s := (List.range (radialSegments + 1)).foldl (addPoint (vertexAt j) j) s
  { s with prevrow := s.thisrow, thisrow := s.point }

/-- The loop over the rows, with `thisrow` and `prevrow` set before it. -/
def addRows (vertexAt : Nat → Nat → Vertex K) (radialSegments rings : Nat) (s : Builder K) : Builder K :=
  (List.range (rings + 2)).foldl (addRow vertexAt radialSegments) { s with thisrow := s.point, prevrow := 0 }

end Builder

/-- `u * (M_PI * 2)` -/
def turned (u : K) : K := u * (pi * two)

/-! ## Capsules -/

section Capsule

variable (radius midHeight : K) (radialSegments rings : Nat)

def onethird : K := 1 / literal 3

def twothirds : K := two / literal 3

def topVertex (j i : Nat) : Vertex K :=
  let v := literal j / literal (rings + 1)
  let w := sinf (literal (1 / 2) * pi * v)
  let z := radius * cosf (literal (1 / 2) * pi * v)
  let u := literal i / literal radialSegments
  let x := sinf (turned u)
  let y := -cosf (turned u)
  let p : Vector3 K := ⟨x * radius * w, y * radius * w, z⟩
  let shifted := p + ⟨0, 0, literal (1 / 2) * midHeight⟩
  ⟨shifted, ⟨u, onethird * v⟩, shifted.normalize⟩

def middleVertex (j i : Nat) : Vertex K :=
  let v := literal j / literal (rings + 1)
  let z := midHeight * v
  let z := midHeight * literal (1 / 2) - z
  let u := literal i / literal radialSegments
  let x := sinf (turned u)
  let y := -cosf (turned u)
  ⟨⟨x * radius, y * radius, z⟩, ⟨u, onethird + v * onethird⟩, ⟨x, 0, z⟩⟩

def bottomVertex (j i : Nat) : Vertex K :=
  let v := literal j / literal (rings + 1) + 1
  let w := sinf (literal (1 / 2) * pi * v)
  let z := radius * cosf (literal (1 / 2) * pi * v)
  let u2 := literal i / literal radialSegments
  let x := sinf (turned u2)
  let y := -cosf (turned u2)
  let p : Vector3 K := ⟨x * radius * w, y * radius * w, z⟩
  let shifted := p + ⟨0, 0, -literal (1 / 2) * midHeight⟩
  ⟨shifted, ⟨u2, twothirds + (v - 1) * onethird⟩, shifted.normalize⟩

def createCapsule : Mesh K :=
  let s := Builder.empty
  let s := s.addRows (topVertex radius midHeight radialSegments rings) radialSegments rings
  let s := s.addRows (middleVertex radius midHeight radialSegments rings) radialSegments rings
  let s := s.addRows (bottomVertex radius midHeight radialSegments rings) radialSegments rings
  finish s.data s.indices

end Capsule

/-! ## Cylinders -/

section Cylinder

variable (bottomRadius topRadius height : K) (radialSegments rings : Nat)

def sideVertex (j i : Nat) : Vertex K :=
  let v := literal j / literal (rings + 1)
  let radius := topRadius + (bottomRadius - topRadius) * v
  let y := height * v
  let y := height * literal (1 / 2) - y
  let u := literal i / literal radialSegments
  let x := sinf (turned u)
  let z := cosf (turned u)
  ⟨⟨x * radius, y, z * radius⟩, ⟨u, v * literal (1 / 2)⟩, ⟨x, 0, z⟩⟩

def topCapVertex (i : Nat) : Vertex K :=
  let y := height * literal (1 / 2)
  let r := literal i / literal radialSegments
  let x := sinf (turned r)
  let z := cosf (turned r)
  let u := (x + 1) * literal (1 / 4)
  let v := literal (1 / 2) + (z + 1) * literal (1 / 4)
  ⟨⟨x * topRadius, y, z * topRadius⟩, ⟨u, v⟩, ⟨0, 1, 0⟩⟩

def bottomCapVertex (i : Nat) : Vertex K :=
  let y := height * -literal (1 / 2)
  let r := literal i / literal radialSegments
  let x := sinf (turned r)
  let z := cosf (turned r)
  let u := literal (1 / 2) + (x + 1) * literal (1 / 4)
  let v := 1 - (z + 1) * literal (1 / 4)
  ⟨⟨x * bottomRadius, y, z * bottomRadius⟩, ⟨u, v⟩, ⟨0, -1, 0⟩⟩

/-- One turn of the loop round a cap. -/
def addCapPoint (vertexAt : Nat → Vertex K) (triangle : Nat → Nat → List Nat) (s : Builder K) (i : Nat) : Builder K :=
  let s := s.emplaceBack (vertexAt i)
  if i > 0 then s.pushIndices (triangle s.point s.thisrow) else s

/-- `thisrow` is the row behind the last one, where the middle of the cap is put. -/
def addTop (s : Builder K) : Builder K :=
  if lt 0 topRadius then
    let s := s.emplaceBack ⟨⟨0, height * literal (1 / 2), 0⟩, ⟨literal (1 / 4), literal (3 / 4)⟩, ⟨0, 1, 0⟩⟩
    (List.range (radialSegments + 1)).foldl
      (addCapPoint (topCapVertex topRadius height radialSegments)
        fun point thisrow => [point - 2, point - 1, thisrow]) s
  else s

def addBottom (s : Builder K) : Builder K :=
  if lt 0 bottomRadius then
    let s := { s with thisrow := s.point }
    let s := s.emplaceBack ⟨⟨0, height * -literal (1 / 2), 0⟩, ⟨literal (3 / 4), literal (3 / 4)⟩, ⟨0, -1, 0⟩⟩
    (List.range (radialSegments + 1)).foldl
      (addCapPoint (bottomCapVertex bottomRadius height radialSegments)
        fun point thisrow => [point - 1, point - 2, thisrow]) s
  else s

def createCylinder : Mesh K :=
  let s := Builder.empty
  let s := s.addRows (sideVertex bottomRadius topRadius height radialSegments rings) radialSegments rings
  let s := addTop topRadius height radialSegments s
  let s := addBottom bottomRadius height radialSegments s
  finish s.data s.indices

end Cylinder

end Meshes

end Lumos.Graphics.MeshFactory
