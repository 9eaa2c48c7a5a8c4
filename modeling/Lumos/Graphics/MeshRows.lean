import Lumos.Graphics.MeshFactory
import Lumos.Library.ClosedSurface

/-!
# Vertices and indices row by row

What the loops of the mesh factory leave behind: the vertices stand row behind row, and the
indices are those of the triangles between them.
-/
namespace Lumos.Graphics.MeshFactory

open Maths FloatArithmetic FloatLiterals
open Library.ClosedSurface

/-! ## Indices by triangles -/

/-- The triangles an index buffer draws. -/
def triangles : List Nat → List (Triangle Nat)
  | a :: b :: c :: rest => ⟨a, b, c⟩ :: triangles rest
  | _ => []

@[simp] theorem triangles_flatMap_corners (ts : List (Triangle Nat)) :
    triangles (ts.flatMap Triangle.corners) = ts := by
  induction ts with
  | nil => rfl
  | cons t ts ih => simp [Triangle.corners, triangles, ih]

/-! ## Rows -/

section Rows

variable {α : Type}

theorem length_rows (f : Nat → Nat → α) (rows columns : Nat) :
    ((List.range rows).flatMap fun j => (List.range columns).map (f j)).length = rows * columns := by
  simp [List.length_flatMap]

theorem getElem?_rows (f : Nat → Nat → α) {rows columns j i : Nat} (hj : j < rows) (hi : i < columns) :
    ((List.range rows).flatMap fun j => (List.range columns).map (f j))[j * columns + i]? = some (f j i) := by
  induction rows with
  | zero => omega
  | succ rows ih =>
    rw [List.range_succ, List.flatMap_append, List.flatMap_singleton]
    rcases Nat.lt_or_eq_of_le (Nat.le_of_lt_succ hj) with hlt | rfl
    · have hle : (j + 1) * columns ≤ rows * columns := Nat.mul_le_mul_right _ hlt
      rw [Nat.add_one_mul] at hle
      rw [List.getElem?_append_left (by rw [length_rows]; omega)]
      exact ih hlt
    · rw [List.getElem?_append_right (by rw [length_rows]; omega), length_rows, Nat.add_sub_cancel_left,
        List.getElem?_map, List.getElem?_range hi]
      rfl

end Rows

/-! ## The loops over rows -/

/-- The two triangles of a cell, by the positions at which the rows below and above it begin. -/
def cellTriangles (thisrow prevrow i : Nat) : List (Triangle Nat) :=
  [⟨thisrow + i, prevrow + (i + 1), prevrow + i⟩, ⟨thisrow + i, thisrow + (i + 1), prevrow + (i + 1)⟩]

/-- Those of the rows behind a position. -/
def rowTriangles (base radialSegments rings : Nat) : List (Triangle Nat) :=
  (List.range (rings + 1)).flatMap fun j => (List.range radialSegments).flatMap
    (cellTriangles (base + (j + 1) * (radialSegments + 1)) (base + j * (radialSegments + 1)))

namespace Builder

variable {K : Type} (vertexAt : Nat → Nat → Vertex K) (radialSegments rings : Nat) (s : Builder K)

/-- What a row adds up to some column. -/
theorem foldl_addPoint (vertexAt : Nat → Vertex K) (j count : Nat) :
    (List.range (count + 1)).foldl (addPoint vertexAt j) s =
      { s with
        data := s.data ++ (List.range (count + 1)).map vertexAt
        indices := s.indices ++ (if j = 0 then [] else
          (List.range count).flatMap fun i => (cellTriangles s.thisrow s.prevrow i).flatMap Triangle.corners)
        point := s.point + (count + 1) } := by
  induction count with
  | zero => simp [addPoint, emplaceBack]
  | succ count ih =>
    rw [List.range_succ, List.foldl_append, ih, List.foldl_cons, List.foldl_nil]
    by_cases hj : j = 0
    · simp [addPoint, emplaceBack, hj, List.range_succ, Nat.add_assoc]
    · have hpos : 0 < j := by omega
      simp [addPoint, emplaceBack, pushIndices, hj, hpos, List.range_succ, cellTriangles, Triangle.corners, Nat.add_assoc]

theorem foldl_addRow (count : Nat) (hthis : s.thisrow = s.point) :
    (List.range (count + 1)).foldl (addRow vertexAt radialSegments) s =
      { data := s.data ++ (List.range (count + 1)).flatMap fun j => (List.range (radialSegments + 1)).map (vertexAt j)
        indices := s.indices ++ ((List.range count).flatMap fun j => (List.range radialSegments).flatMap
          (cellTriangles (s.point + (j + 1) * (radialSegments + 1)) (s.point + j * (radialSegments + 1)))).flatMap
            Triangle.corners
        point := s.point + (count + 1) * (radialSegments + 1)
        thisrow := s.point + (count + 1) * (radialSegments + 1)
        prevrow := s.point + count * (radialSegments + 1) } := by
  induction count with
  | zero => simp [addRow, foldl_addPoint, hthis]
  | succ count ih =>
    rw [List.range_succ, List.foldl_append, ih, List.foldl_cons, List.foldl_nil, addRow, foldl_addPoint]
    simp only [List.range_succ, List.flatMap_append, List.flatMap_singleton, List.flatMap_assoc, List.append_assoc,
      Nat.succ_ne_zero, if_false, Nat.add_one_mul, Nat.add_assoc]

theorem addRows_eq :
    s.addRows vertexAt radialSegments rings =
      { data := s.data ++ (List.range (rings + 2)).flatMap fun j => (List.range (radialSegments + 1)).map (vertexAt j)
        indices := s.indices ++ (rowTriangles s.point radialSegments rings).flatMap Triangle.corners
        point := s.point + (rings + 2) * (radialSegments + 1)
        thisrow := s.point + (rings + 2) * (radialSegments + 1)
        prevrow := s.point + (rings + 1) * (radialSegments + 1) } := by
  rw [addRows, foldl_addRow vertexAt radialSegments _ (rings + 1) rfl]
  rfl

/-- What a cap adds up to some column. -/
theorem foldl_addCapPoint (vertexAt : Nat → Vertex K) (triangle : Nat → Nat → List Nat) (count : Nat) :
    (List.range (count + 1)).foldl (addCapPoint vertexAt triangle) s =
      { s with
        data := s.data ++ (List.range (count + 1)).map vertexAt
        indices := s.indices ++ (List.range count).flatMap fun i => triangle (s.point + i + 2) s.thisrow
        point := s.point + (count + 1) } := by
  induction count with
  | zero => simp [addCapPoint, emplaceBack]
  | succ count ih =>
    rw [List.range_succ, List.foldl_append, ih, List.foldl_cons, List.foldl_nil]
    simp [addCapPoint, emplaceBack, pushIndices, List.range_succ, Nat.add_assoc]

end Builder

/-! ## The three meshes -/

section Parts

variable {K : Type} (vertexAt : Nat → Nat → Vertex K) (radialSegments rings : Nat)

def partSize : Nat := (rings + 2) * (radialSegments + 1)

/-- The vertices of a part with so many rings. -/
def partVertices : List (Vertex K) :=
  (List.range (rings + 2)).flatMap fun j => (List.range (radialSegments + 1)).map (vertexAt j)

theorem length_partVertices : (partVertices vertexAt radialSegments rings).length = partSize radialSegments rings :=
  length_rows vertexAt _ _

/-- A vertex of a part that stands among others. -/
theorem getElem?_part {front back : List (Vertex K)} {base j i : Nat} (hbase : front.length = base)
    (hj : j ≤ rings + 1) (hi : i ≤ radialSegments) :
    (front ++ (partVertices vertexAt radialSegments rings ++ back))[base + j * (radialSegments + 1) + i]? =
      some (vertexAt j i) := by
  have hrow := getElem?_rows vertexAt (by omega : j < rings + 2) (by omega : i < radialSegments + 1)
  rw [List.getElem?_append_right (by omega), hbase, Nat.add_assoc, Nat.add_sub_cancel_left, List.getElem?_append_left]
  · exact hrow
  · exact (List.getElem?_eq_some_iff.mp hrow).1

/-- The middle of a cap and the vertices round it. -/
def capVertices (middle : Vertex K) (vertexAt : Nat → Vertex K) : List (Vertex K) :=
  middle :: (List.range (radialSegments + 1)).map vertexAt

/-- A cap that stands among others: its middle, and the vertices round it. -/
theorem getElem?_cap {middle : Vertex K} {vertexAt : Nat → Vertex K} {front back : List (Vertex K)} {base i : Nat}
    (hbase : front.length = base) (hi : i ≤ radialSegments) :
    (front ++ (capVertices radialSegments middle vertexAt ++ back))[base]? = some middle ∧
      (front ++ (capVertices radialSegments middle vertexAt ++ back))[base + 1 + i]? = some (vertexAt i) := by
  have hround : (capVertices radialSegments middle vertexAt)[1 + i]? = some (vertexAt i) := by
    rw [capVertices, Nat.add_comm 1 i, List.getElem?_cons_succ, List.getElem?_map, List.getElem?_range (by omega)]
    rfl
  constructor
  · rw [List.getElem?_append_right (by omega), hbase, Nat.sub_self]
    rfl
  · rw [List.getElem?_append_right (by omega), hbase, Nat.add_assoc, Nat.add_sub_cancel_left, List.getElem?_append_left]
    · exact hround
    · exact (List.getElem?_eq_some_iff.mp hround).1

end Parts

section Meshes

variable {K : Type} [FloatTrigonometry K]

section Sphere

variable (sectorCount stackCount : Nat)

def sphereVertices : List (Vertex K) :=
  (turnsTo stackCount).flatMap fun i => (turnsTo sectorCount).map (sphereVertex sectorCount stackCount i)

/-- The triangles of a sector, by the positions at which the rows above and below it begin. -/
def sphereCell (i j : Nat) : List (Triangle Nat) :=
  let k1 := i * (sectorCount + 1) + j
  let k2 := i * (sectorCount + 1) + sectorCount + 1 + j
  (if i ≠ 0 then [⟨k1, k2, k1 + 1⟩] else []) ++
    (if toFloat i ≠ toFloat (stackCount - 1) then [⟨k1 + 1, k2, k2 + 1⟩] else [])

def sphereTriangles : List (Triangle Nat) :=
  (turnsBelow stackCount).flatMap fun i => (turnsBelow sectorCount).flatMap (sphereCell sectorCount stackCount i)

theorem sphereIndices_eq (i j : Nat) :
    sphereIndices sectorCount stackCount i j =
      ((sphereCell sectorCount stackCount i j).map (Triangle.map (· % 2 ^ 32))).flatMap Triangle.corners := by
  rw [sphereIndices, sphereCell, List.map_append, List.map_append, List.flatMap_append]
  split <;> split <;> rfl

theorem createSphere_eq (xSegments ySegments : Nat) :
    (createSphere xSegments ySegments : Mesh K) =
      finish (sphereVertices (toFloat xSegments) (toFloat ySegments))
        (((sphereTriangles (toFloat xSegments) (toFloat ySegments)).map (Triangle.map (· % 2 ^ 32))).flatMap
          Triangle.corners) := by
  simp only [createSphere, sphereTriangles, List.map_flatMap, List.flatMap_assoc, sphereIndices_eq]
  rfl

end Sphere

section Capsule

variable (radius midHeight : K) (radialSegments rings : Nat)

def capsuleVertices : List (Vertex K) :=
  partVertices (topVertex radius midHeight radialSegments rings) radialSegments rings ++
    partVertices (middleVertex radius midHeight radialSegments rings) radialSegments rings ++
      partVertices (bottomVertex radius midHeight radialSegments rings) radialSegments rings

def capsuleTriangles : List (Triangle Nat) :=
  rowTriangles 0 radialSegments rings ++ rowTriangles (partSize radialSegments rings) radialSegments rings ++
    rowTriangles (partSize radialSegments rings + partSize radialSegments rings) radialSegments rings

theorem createCapsule_eq :
    createCapsule radius midHeight radialSegments rings =
      finish (capsuleVertices radius midHeight radialSegments rings)
        ((capsuleTriangles radialSegments rings).flatMap Triangle.corners) := by
  simp only [createCapsule, Builder.addRows_eq]
  simp [Builder.empty, capsuleVertices, capsuleTriangles, partVertices, partSize, List.append_assoc]

end Capsule

section Cylinder

variable (bottomRadius topRadius height : K) (radialSegments rings : Nat)

def topMiddle : Vertex K := ⟨⟨0, height * literal (1 / 2), 0⟩, ⟨literal (1 / 4), literal (3 / 4)⟩, ⟨0, 1, 0⟩⟩

def bottomMiddle : Vertex K := ⟨⟨0, height * -literal (1 / 2), 0⟩, ⟨literal (3 / 4), literal (3 / 4)⟩, ⟨0, -1, 0⟩⟩

def cylinderVertices : List (Vertex K) :=
  partVertices (sideVertex bottomRadius topRadius height radialSegments rings) radialSegments rings ++
    capVertices radialSegments (topMiddle height) (topCapVertex topRadius height radialSegments) ++
      capVertices radialSegments (bottomMiddle height) (bottomCapVertex bottomRadius height radialSegments)

/-- The triangles of a cap whose middle is at some position. -/
def topTriangles (middle : Nat) : List (Triangle Nat) :=
  (List.range radialSegments).map fun i => ⟨middle + 1 + i, middle + 1 + (i + 1), middle⟩

def bottomTriangles (middle : Nat) : List (Triangle Nat) :=
  (List.range radialSegments).map fun i => ⟨middle + 1 + (i + 1), middle + 1 + i, middle⟩

def cylinderTriangles : List (Triangle Nat) :=
  rowTriangles 0 radialSegments rings ++ topTriangles radialSegments (partSize radialSegments rings) ++
    bottomTriangles radialSegments (partSize radialSegments rings + 1 + (radialSegments + 1))

theorem createCylinder_eq (htop : lt 0 topRadius = true) (hbottom : lt 0 bottomRadius = true) :
    createCylinder bottomRadius topRadius height radialSegments rings =
      finish (cylinderVertices bottomRadius topRadius height radialSegments rings)
        ((cylinderTriangles radialSegments rings).flatMap Triangle.corners) := by
  simp only [createCylinder, Builder.addRows_eq, addTop, addBottom, htop, hbottom, if_true, Builder.foldl_addCapPoint]
  simp [Builder.empty, Builder.emplaceBack, cylinderVertices, cylinderTriangles, topTriangles, bottomTriangles,
    capVertices, topMiddle, bottomMiddle, partVertices, partSize, Triangle.corners, List.flatMap_map]
  rfl

end Cylinder

end Meshes

end Lumos.Graphics.MeshFactory
