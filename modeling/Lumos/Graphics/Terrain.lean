import Mathlib.Data.List.Nodup
import Mathlib.Data.List.Perm.Basic
import Lumos.Maths.FloatArithmetic

/-!
# `Terrain`

The vertices of a grid are written column by column, and each cell between them is cut into
two triangles.
-/
namespace Lumos.Graphics.Terrain

open Maths FloatArithmetic FloatLiterals

/-! ## The constructor -/

section Vertices

variable {K : Type} [FloatLiterals K]

structure TerrainVertex (K : Type) where
  position : Vector3 K
  texCoord : Vector2 K

/-- The grid in the order of the loops over it. -/
def grid (width height : Nat) : List (Nat × Nat) :=
  (List.range width).flatMap fun x => (List.range height).map fun z => (x, z)

/-- `(x * width) + z` -/
def offset (width : Nat) (point : Nat × Nat) : Nat := point.1 * width + point.2

def xCoord : Nat := 0

def zCoord : Nat := 0

/-- Over the generator it calls, with its last four arguments zero. -/
def Noise (stb_perlin_noise3 : K → K → K) (x y : Nat) : K :=
  let xx : K := literal ((x : ℚ) + 100)
  let yy : K := literal ((y : ℚ) - 50)
  let layer := fun size : K => (stb_perlin_noise3 (xx / size) (yy / size) + literal 1) / literal 2
  (layer (literal 25) + layer (literal 180)) / literal 2

/-- The numbers the constructor gets besides the size. -/
structure Scales (K : Type) where
  xRand : K
  yRand : K
  zRand : K
  texRandX : K
  texRandZ : K

def vertexAt (stb_perlin_noise3 : K → K → K) (scales : Scales K) (width : Nat) (point : Nat × Nat) : TerrainVertex K :=
  let (x, z) := point
  let dataVal := Noise stb_perlin_noise3 (x + xCoord * width) (z + zCoord * width)
  { position := ⟨(literal x + literal xCoord * literal width) * scales.xRand,
      dataVal * dataVal * dataVal * scales.yRand,
      (literal z + literal zCoord * literal width) * scales.zRand⟩
    texCoord := ⟨literal x * scales.texRandX, literal z * scales.texRandZ⟩ }

/-- What the vertex loop writes, and where. -/
def vertexWrites (stb_perlin_noise3 : K → K → K) (scales : Scales K) (width height : Nat) :
    List (Nat × TerrainVertex K) :=
  (grid width height).map fun point => (offset width point, vertexAt stb_perlin_noise3 scales width point)

end Vertices

def numVertices (width height : Nat) : Nat := width * height

def numIndices (width height : Nat) : Nat := (width - 1) * (height - 1) * 6

/-- The corners of the two triangles of a cell. -/
def cellIndices (width : Nat) (cell : Nat × Nat) : List Nat :=
  let (x, z) := cell
  let a := x * width + z
  let b := (x + 1) * width + z
  let c := (x + 1) * width + (z + 1)
  let d := x * width + (z + 1)
  [c, b, a, a, d, c]

/-- One turn of the loop over the cells. -/
def addCell (width height : Nat) (indices : List Nat) (cell : Nat × Nat) : List Nat :=
  if indices.length < numIndices width height - 6 then indices ++ cellIndices width cell else indices

/-- The cells in the order of the loops over them. -/
def cells (width height : Nat) : List (Nat × Nat) := grid (width - 1) (height - 1)

def indexBuffer (width height : Nat) : List Nat := (cells width height).foldl (addCell width height) []

/-! ## What is promised -/

/-- The corners, three by three. -/
def triangles : List Nat → List (Nat × Nat × Nat)
  | i :: j :: k :: rest => (i, j, k) :: triangles rest
  | _ => []

/-- A cell with its corners in the order of the loops. -/
def cellTriangles (width : Nat) (cell : Nat × Nat) : List (Nat × Nat × Nat) :=
  let corner := fun dx dz => offset width (cell.1 + dx, cell.2 + dz)
  [(corner 1 1, corner 1 0, corner 0 0), (corner 0 0, corner 0 1, corner 1 1)]

structure Triangulates (width height : Nat) : Prop where
  cells : (triangles (indexBuffer width height)).Perm ((cells width height).flatMap (cellTriangles width))
  inRange : ∀ i ∈ indexBuffer width height, i < numVertices width height
  slots : ((grid width height).map (offset width)).Perm (List.range (numVertices width height))

/-! ## Cells -/

section Cells

variable {width height : Nat}

theorem length_grid (width height : Nat) : (grid width height).length = width * height := by
  simp [grid]

theorem mem_grid {point : Nat × Nat} : point ∈ grid width height ↔ point.1 < width ∧ point.2 < height := by
  obtain ⟨x, z⟩ := point
  simp [grid]

theorem nodup_grid (width height : Nat) : (grid width height).Nodup := by
  refine List.nodup_flatMap.mpr ⟨fun x _ => ?_, ?_⟩
  · exact List.nodup_range.map fun z z' h => (Prod.mk.inj h).2
  · refine List.nodup_range.pairwise_of_forall_ne fun x _ x' _ hne => ?_
    rw [Function.onFun_apply, List.disjoint_left]
    rintro _ hx hx'
    obtain ⟨z, -, rfl⟩ := List.mem_map.mp hx
    obtain ⟨z', -, h⟩ := List.mem_map.mp hx'
    exact hne (Prod.mk.inj h).1.symm

theorem length_cellIndices (width : Nat) (cell : Nat × Nat) : (cellIndices width cell).length = 6 := rfl

/-- From a number of cells on, the loop stops one cell before the end. -/
theorem foldl_addCell {done : Nat} {indices : List Nat} (hlength : indices.length = 6 * done)
    (rest : List (Nat × Nat)) (htotal : done + rest.length = (width - 1) * (height - 1)) :
    rest.foldl (addCell width height) indices =
      indices ++ (rest.take (rest.length - 1)).flatMap (cellIndices width) := by
  induction rest generalizing done indices with
  | nil => simp
  | cons cell rest ih =>
    rw [List.length_cons] at htotal
    rw [List.foldl_cons, addCell, numIndices, ← htotal, hlength]
    cases rest with
    | nil =>
      have hfull : ¬ 6 * done < (done + (([] : List (Nat × Nat)).length + 1)) * 6 - 6 := by
        rw [List.length_nil]
        omega
      rw [if_neg hfull]
      simp
    | cons next rest =>
      have hroom : 6 * done < (done + ((next :: rest).length + 1)) * 6 - 6 := by
        rw [List.length_cons]
        omega
      have hcell : (indices ++ cellIndices width cell).length = 6 * (done + 1) := by
        rw [List.length_append, hlength, length_cellIndices]
        rfl
      rw [if_pos hroom, ih hcell (by omega)]
      simp [List.append_assoc]

/-- All cells but the last. -/
theorem indexBuffer_eq (width height : Nat) : indexBuffer width height =
    ((cells width height).take ((cells width height).length - 1)).flatMap (cellIndices width) := by
  have htotal : 0 + (cells width height).length = (width - 1) * (height - 1) := by
    rw [cells, length_grid, Nat.zero_add]
  exact foldl_addCell rfl (cells width height) htotal

theorem triangles_append (front back : List Nat) (hfront : front.length % 3 = 0) :
    triangles (front ++ back) = triangles front ++ triangles back := by
  induction front using triangles.induct with
  | case1 i j k rest ih =>
    simp only [List.length_cons] at hfront
    exact congrArg ((i, j, k) :: ·) (ih (by omega))
  | case2 front hshort =>
    match front, hshort with
    | [], _ => rfl
    | [_], _ => simp at hfront
    | [_, _], _ => simp at hfront
    | i :: j :: k :: rest, hshort => exact absurd rfl (hshort i j k rest)

theorem triangles_cellIndices (width : Nat) (cell : Nat × Nat) :
    triangles (cellIndices width cell) = cellTriangles width cell := rfl

/-- The triangles are those of the cells, without the last one. -/
theorem triangles_indexBuffer (width height : Nat) : triangles (indexBuffer width height) =
    ((cells width height).take ((cells width height).length - 1)).flatMap (cellTriangles width) := by
  rw [indexBuffer_eq]
  induction (cells width height).take ((cells width height).length - 1) with
  | nil => rfl
  | cons cell rest ih =>
    rw [List.flatMap_cons, List.flatMap_cons, triangles_append _ _ (by rw [length_cellIndices]),
      triangles_cellIndices, ih]

theorem length_flatMap_cellTriangles (width : Nat) (list : List (Nat × Nat)) :
    (list.flatMap (cellTriangles width)).length = 2 * list.length := by
  induction list with
  | nil => rfl
  | cons cell rest ih =>
    rw [List.flatMap_cons, List.length_append, ih, List.length_cons]
    simp [cellTriangles]
    omega

/-- The last cell is missing. -/
theorem not_perm_cellTriangles (hwidth : 2 ≤ width) (hheight : 2 ≤ height) :
    ¬ (triangles (indexBuffer width height)).Perm ((cells width height).flatMap (cellTriangles width)) := by
  intro hperm
  have hlength := hperm.length_eq
  have hcells : 0 < (cells width height).length := by
    rw [cells, length_grid]
    exact Nat.mul_pos (by omega) (by omega)
  rw [triangles_indexBuffer, length_flatMap_cellTriangles, length_flatMap_cellTriangles, List.length_take] at hlength
  omega

/-- No grid is triangulated, whatever its size. -/
theorem not_triangulates (hwidth : 2 ≤ width) (hheight : 2 ≤ height) : ¬ Triangulates width height :=
  fun h => not_perm_cellTriangles hwidth hheight h.cells

theorem not_triangulates_three_by_two : ¬ Triangulates 3 2 := not_triangulates (by decide) (by decide)

/-- Of the one cell of the smallest grid there is no triangle. -/
theorem indexBuffer_smallest : indexBuffer 2 2 = [] ∧ ¬ Triangulates 2 2 :=
  ⟨rfl, fun h => not_perm_cellTriangles (by decide) (by decide) h.cells⟩

end Cells

/-! ## Slots -/

section Slots

variable {width height : Nat}

theorem map_fst_vertexWrites {K : Type} [FloatLiterals K] (stb_perlin_noise3 : K → K → K) (scales : Scales K)
    (width height : Nat) :
    (vertexWrites stb_perlin_noise3 scales width height).map Prod.fst = (grid width height).map (offset width) := by
  rw [vertexWrites, List.map_map]
  rfl

theorem mem_offsets {n : Nat} : n ∈ (grid width height).map (offset width) ↔
    ∃ x z, x < width ∧ z < height ∧ x * width + z = n := by
  simp only [List.mem_map, mem_grid, Prod.exists, offset]
  exact ⟨fun ⟨x, z, ⟨hx, hz⟩, h⟩ => ⟨x, z, hx, hz, h⟩, fun ⟨x, z, hx, hz, h⟩ => ⟨x, z, ⟨hx, hz⟩, h⟩⟩

/-- Each slot is written once, and no other, exactly where the grid is square: the stride is
the width, but a column is as long as the height. -/
theorem slots_iff (hwidth : 2 ≤ width) (hheight : 2 ≤ height) :
    ((grid width height).map (offset width)).Perm (List.range (numVertices width height)) ↔ width = height := by
  constructor
  · intro hperm
    by_contra hne
    obtain hlt | hlt := Nat.lt_or_gt_of_ne hne
    · -- the first column goes on where the second one begins
      have hnodup : ((grid width height).map (offset width)).Nodup := hperm.nodup_iff.mpr List.nodup_range
      have hsame := List.inj_on_of_nodup_map hnodup (x := (0, width)) (mem_grid.mpr ⟨by omega, hlt⟩) (y := (1, 0))
        (mem_grid.mpr ⟨by omega, by omega⟩) (by simp [offset])
      cases hsame
    · -- the last column ends behind the last slot
      have hlast : (width - 1) * width + (height - 1) ∈ (grid width height).map (offset width) :=
        mem_offsets.mpr ⟨width - 1, height - 1, by omega, by omega, rfl⟩
      have hrange := List.mem_range.mp (hperm.mem_iff.mp hlast)
      have hcolumns : width * height ≤ width * (width - 1) := Nat.mul_le_mul_left width (by omega)
      rw [numVertices, Nat.mul_comm (width - 1)] at hrange
      omega
  · rintro rfl
    refine (List.perm_ext_iff_of_nodup ?_ List.nodup_range).mpr fun n => ?_
    · refine (nodup_grid width width).map_on ?_
      rintro ⟨x, z⟩ hp ⟨x', z'⟩ hp' h
      obtain ⟨-, hz⟩ := mem_grid.mp hp
      obtain ⟨-, hz'⟩ := mem_grid.mp hp'
      have hx : (x * width + z) / width = (x' * width + z') / width := congrArg (· / width) h
      rw [Nat.mul_comm x, Nat.mul_comm x', Nat.mul_add_div (by omega), Nat.mul_add_div (by omega),
        Nat.div_eq_of_lt hz, Nat.div_eq_of_lt hz'] at hx
      have hz : z = z' := by
        rw [offset, offset] at h
        rw [Nat.add_zero, Nat.add_zero] at hx
        subst hx
        exact Nat.add_left_cancel h
      rw [Nat.add_zero, Nat.add_zero] at hx
      rw [hz, hx]
    · rw [mem_offsets, List.mem_range, numVertices]
      constructor
      · rintro ⟨x, z, hx, hz, rfl⟩
        have hrow : (x + 1) * width ≤ width * width := Nat.mul_le_mul_right width hx
        rw [Nat.succ_mul] at hrow
        omega
      · intro hn
        exact ⟨n / width, n % width, Nat.div_lt_of_lt_mul hn, Nat.mod_lt _ (by omega), Nat.div_add_mod' n width⟩

end Slots

end Lumos.Graphics.Terrain
