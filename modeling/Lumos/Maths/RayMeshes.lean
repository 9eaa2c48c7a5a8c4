import Mathlib
import Lumos.Maths.RayHits

/-!
# Rays and triangle lists

The nearest of the triangles is kept with its distance. The normal and the barycentric
coordinates are written by each triangle that is hit, whether it is nearer or not.
-/
namespace Lumos.Maths.Ray

open FloatArithmetic

/-! ## Triangles -/

structure TriangleHit (K : Type) where
  distance : K
  outNormal : Vector3 K
  outBary : Vector3 K
  deriving DecidableEq

section Definitions

variable {K : Type} [FloatArithmetic K] (ray : Ray K)

/-- `HitDistance` of a triangle, which writes nothing when it gives infinity. -/
def hitTriangle (v0 v1 v2 : Vector3 K) : Option (TriangleHit K) :=
  let edge1 := v1 - v0
  let edge2 := v2 - v0
  let p := ray.direction.crossProduct edge2
  let det := edge1.dotProduct p
  if le mEpsilon det then
    let t := ray.origin - v0
    let u := t.dotProduct p
    if le 0 u && le u det then
      let q := t.crossProduct edge1
      let v := ray.direction.dotProduct q
      if le 0 v && le (u + v) det then
        let distance := edge2.dotProduct q / det
        if le 0 distance then
          some ⟨distance, edge1.crossProduct edge2, ⟨1 - u / det - v / det, u / det, v / det⟩⟩
        else none
      else none
    else none
  else none

/-! ## Meshes -/

structure MeshVertex (K : Type) where
  position : Vector3 K
  uv : Vector2 K

/-- 16-bit or 32-bit indices. -/
inductive IndexData where
  | short (indices : List UInt16)
  | long (indices : List UInt32)

def IndexData.values : IndexData → List Nat
  | short indices => indices.map UInt16.toNat
  | long indices => indices.map UInt32.toNat

/-- The arguments of the two functions. -/
inductive MeshData (K : Type) where
  | vertices (vertexData : List (MeshVertex K)) (vertexStart vertexCount : Nat)
  | indexed (vertexData : List (MeshVertex K)) (indexData : IndexData) (indexStart indexCount : Nat)

abbrev Triple := Nat × Nat × Nat

namespace MeshData

def vertexData : MeshData K → List (MeshVertex K)
  | vertices vertexData _ _ => vertexData
  | indexed vertexData _ _ _ => vertexData

/-- The turns of `while (index + 2 < vertexCount)`, from some vertex on. -/
def consecutive (vertexStart : Nat) : Nat → List Triple
  | vertexCount + 3 =>
    (vertexStart, vertexStart + 1, vertexStart + 2) :: consecutive (vertexStart + 3) vertexCount
  | _ => []

/-- The turns of `while (indices < indicesEnd)`. The last one reads past the end if there are
one or two indices left. -/
def byThrees : List Nat → Option (List Triple)
  | i0 :: i1 :: i2 :: indices => (byThrees indices).map ((i0, i1, i2) :: ·)
  | [] => some []
  | _ => none

/-- The vertices of the turns of the loop. -/
def triples : MeshData K → Option (List Triple)
  | vertices _ vertexStart vertexCount => some (consecutive vertexStart vertexCount)
  | indexed _ indexData indexStart indexCount =>
    if indexStart + indexCount ≤ indexData.values.length then
      byThrees ((indexData.values.drop indexStart).take indexCount)
    else none

end MeshData

section Loop

variable (vertexData : List (MeshVertex K))

def read (indices : Triple) : Option (MeshVertex K × MeshVertex K × MeshVertex K) := do
  let v0 ← vertexData[indices.1]?
  let v1 ← vertexData[indices.2.1]?
  let v2 ← vertexData[indices.2.2]?
  return (v0, v1, v2)

/-- The variables of the loop. -/
@[ext]
structure Search (K : Type) where
  nearest : Option K
  nearestIndices : Option Triple
  outNormal : Vector3 K
  barycentric : Vector3 K

def turn (s : Search K) (indices : Triple) : Option (Search K) := do
  let (v0, v1, v2) ← read vertexData indices
  let hit := ray.hitTriangle v0.position v1.position v2.position
  let distance := hit.map TriangleHit.distance
  let s := match hit with
    | some hit => { s with outNormal := hit.outNormal, barycentric := hit.outBary }
    | none => s
  return if closer distance s.nearest then { s with nearest := distance, nearestIndices := some indices } else s

/-- The texture coordinate at some barycentric coordinates. -/
def interpolate (indices : Triple) (barycentric : Vector3 K) : Option (Vector2 K) := do
  let (v0, v1, v2) ← read vertexData indices
  return ⟨v0.uv.x * barycentric.x + v1.uv.x * barycentric.y + v2.uv.x * barycentric.z,
    v0.uv.y * barycentric.x + v1.uv.y * barycentric.y + v2.uv.y * barycentric.z⟩

structure MeshHit (K : Type) where
  distance : Option K
  outNormal : Vector3 K
  outUV : Vector2 K
  deriving DecidableEq

def finishSearch (s : Search K) : Option (MeshHit K) := do
  let outUV ← match s.nearestIndices with
    | none => some ⟨0, 0⟩
    | some indices => interpolate vertexData indices s.barycentric
  return ⟨s.nearest, s.outNormal, outUV⟩

end Loop

/-- `HitDistance` of a mesh. It fails where it would read out of range. -/
def hitDistanceMesh (mesh : MeshData K) (outNormal : Vector3 K) : Option (MeshHit K) := do
  let triples ← mesh.triples
  let s ← triples.foldlM (ray.turn mesh.vertexData) ⟨none, none, outNormal, 0⟩
  finishSearch mesh.vertexData s

end Definitions

/-! ## What the loop leaves behind -/

section Search

variable {K : Type} [FloatArithmetic K] (ray : Ray K) (vertexData : List (MeshVertex K))

def hitAt (indices : Triple) : Option (TriangleHit K) := do
  let (v0, v1, v2) ← read vertexData indices
  ray.hitTriangle v0.position v1.position v2.position

/-- The triangles that are hit, in their order. -/
def hits (triples : List Triple) : List (Triple × TriangleHit K) :=
  triples.filterMap fun indices => (ray.hitAt vertexData indices).map (indices, ·)

variable [LinearOrder K]

/-- The first of the nearest ones. -/
def firstNearest (triples : List Triple) : Option (Triple × TriangleHit K) :=
  (ray.hits vertexData triples).argmin fun found => found.2.distance

def lastHit (triples : List Triple) : Option (Triple × TriangleHit K) := (ray.hits vertexData triples).getLast?

/-- The variables when some turns have been made. -/
def searched (outNormal : Vector3 K) (triples : List Triple) : Search K where
  nearest := (ray.firstNearest vertexData triples).map fun found => found.2.distance
  nearestIndices := (ray.firstNearest vertexData triples).map Prod.fst
  outNormal := (ray.lastHit vertexData triples).elim outNormal fun found => found.2.outNormal
  barycentric := (ray.lastHit vertexData triples).elim 0 fun found => found.2.outBary

variable {ray vertexData} {outNormal : Vector3 K} {triples : List Triple} {indices : Triple}

omit [LinearOrder K] in
theorem hits_append (triples : List Triple) (indices : Triple) : ray.hits vertexData (triples ++ [indices]) =
    ray.hits vertexData triples ++ ((ray.hitAt vertexData indices).map (indices, ·)).toList := by
  rw [hits, List.filterMap_append]
  cases hhit : ray.hitAt vertexData indices <;> simp [hits, hhit]

theorem turn_searched (hlt : ∀ x y : K, lt x y = true ↔ x < y) (hread : (read vertexData indices).isSome) :
    ray.turn vertexData (ray.searched vertexData outNormal triples) indices =
      some (ray.searched vertexData outNormal (triples ++ [indices])) := by
  obtain ⟨⟨v0, v1, v2⟩, hread⟩ := Option.isSome_iff_exists.mp hread
  have hhit : ray.hitAt vertexData indices = ray.hitTriangle v0.position v1.position v2.position := by
    rw [hitAt, hread]
    rfl
  have hturn : ∀ s, ray.turn vertexData s indices = some
      (let distance := (ray.hitAt vertexData indices).map TriangleHit.distance
       let s := match ray.hitAt vertexData indices with
        | some hit => { s with outNormal := hit.outNormal, barycentric := hit.outBary }
        | none => s
       if closer distance s.nearest then { s with nearest := distance, nearestIndices := some indices } else s) := by
    intro s
    rw [turn, hread, hhit]
    rfl
  rw [hturn, searched, searched, firstNearest, firstNearest, lastHit, lastHit, hits_append]
  cases hmissed : ray.hitAt vertexData indices with
  | none => simp [closer]
  | some hit =>
    have hargmin := List.argmin_concat (fun found : Triple × TriangleHit K => found.2.distance) (indices, hit)
      (ray.hits vertexData triples)
    simp only [Option.map_some, Option.toList_some, hargmin, List.getLast?_append, List.getLast?_singleton]
    cases hfirst : (ray.hits vertexData triples).argmin fun found => found.2.distance with
    | none => simp [closer]
    | some first =>
      by_cases hnearer : hit.distance < first.2.distance
      · simp [closer, hnearer, (hlt _ _).mpr hnearer]
      · simp [closer, hnearer, mt (hlt _ _).mp hnearer]

theorem foldlM_turn (hlt : ∀ x y : K, lt x y = true ↔ x < y)
    (hread : ∀ indices ∈ triples, (read vertexData indices).isSome) :
    triples.foldlM (ray.turn vertexData) ⟨none, none, outNormal, 0⟩ = some (ray.searched vertexData outNormal triples) := by
  induction triples using List.reverseRecOn with
  | nil => rfl
  | append_singleton triples indices ih =>
    rw [List.foldlM_append, ih fun other hother => hread other (List.mem_append_left _ hother)]
    have hlast : ray.turn vertexData (ray.searched vertexData outNormal triples) indices = _ :=
      turn_searched hlt (hread indices (List.mem_append_right _ (List.mem_singleton_self _)))
    simp [hlast]

/-! ## What is promised -/

/-- No triangle of the list is hit at a lesser distance. -/
structure IsNearest (ray : Ray K) (vertexData : List (MeshVertex K)) (triples : List Triple) (indices : Triple)
    (hit : TriangleHit K) : Prop where
  mem : indices ∈ triples
  hitAt : ray.hitAt vertexData indices = some hit
  le : ∀ other ∈ triples, ∀ hit', ray.hitAt vertexData other = some hit' → hit.distance ≤ hit'.distance

/-- The distance is infinite where no triangle is hit, and otherwise the distance, the normal and
the texture coordinate are those of a nearest one. -/
def OfNearest (ray : Ray K) (vertexData : List (MeshVertex K)) (triples : List Triple) (result : MeshHit K) : Prop :=
  match result.distance with
  | none => ∀ indices ∈ triples, ray.hitAt vertexData indices = none
  | some distance => ∃ indices hit, IsNearest ray vertexData triples indices hit ∧ distance = hit.distance ∧
      result.outNormal = hit.outNormal ∧ some result.outUV = interpolate vertexData indices hit.outBary

/-- The last triangle that is hit has the normal of a nearest one, and its barycentric coordinates
are in the first of them what they are in that one. -/
def LastAgrees (ray : Ray K) (vertexData : List (MeshVertex K)) (triples : List Triple) : Prop :=
  ∀ first last, ray.firstNearest vertexData triples = some first → ray.lastHit vertexData triples = some last →
    ∃ indices hit, IsNearest ray vertexData triples indices hit ∧ last.2.outNormal = hit.outNormal ∧
      interpolate vertexData first.1 last.2.outBary = interpolate vertexData indices hit.outBary

omit [LinearOrder K] in
theorem mem_hits {found : Triple × TriangleHit K} : found ∈ ray.hits vertexData triples ↔
    found.1 ∈ triples ∧ ray.hitAt vertexData found.1 = some found.2 := by
  obtain ⟨indices, hit⟩ := found
  simp only [hits, List.mem_filterMap, Option.map_eq_some_iff, Prod.mk.injEq]
  constructor
  · rintro ⟨other, hmem, hit', hhit, rfl, rfl⟩
    exact ⟨hmem, hhit⟩
  · rintro ⟨hmem, hhit⟩
    exact ⟨indices, hmem, hit, hhit, rfl, rfl⟩

/-- The first of the nearest triangles is one, and there is one if any is hit. -/
theorem isNearest_of_firstNearest {first : Triple × TriangleHit K}
    (h : ray.firstNearest vertexData triples = some first) :
    IsNearest ray vertexData triples first.1 first.2 := by
  obtain ⟨hmem, hhit⟩ := mem_hits.mp (List.argmin_mem h)
  refine ⟨hmem, hhit, fun other hother hit' hhit' => ?_⟩
  have hmem' : (other, hit') ∈ ray.hits vertexData triples := mem_hits.mpr ⟨hother, hhit'⟩
  exact @List.le_of_mem_argmin _ _ _ (fun found : Triple × TriangleHit K => found.2.distance) _ _ _ hmem' h

theorem firstNearest_eq_none : ray.firstNearest vertexData triples = none ↔ ray.hits vertexData triples = [] :=
  List.argmin_eq_none

omit [LinearOrder K] in
theorem hits_eq_nil : ray.hits vertexData triples = [] ↔ ∀ indices ∈ triples, ray.hitAt vertexData indices = none := by
  rw [hits, List.filterMap_eq_nil_iff]
  simp only [Option.map_eq_none_iff]

omit [LinearOrder K] in
theorem isSome_interpolate (barycentric : Vector3 K) (h : (read vertexData indices).isSome) :
    ∃ uv, interpolate vertexData indices barycentric = some uv := by
  obtain ⟨⟨v0, v1, v2⟩, hread⟩ := Option.isSome_iff_exists.mp h
  rw [interpolate, hread]
  exact ⟨_, rfl⟩

/-- The texture coordinate is that of the first of the nearest triangles, at the last barycentric
coordinates. -/
theorem finishSearch_searched (ray : Ray K) (outNormal : Vector3 K)
    (hread : ∀ indices ∈ triples, (read vertexData indices).isSome) :
    ∃ result, finishSearch vertexData (ray.searched vertexData outNormal triples) = some result ∧
      (OfNearest ray vertexData triples result ↔ LastAgrees ray vertexData triples) := by
  cases hfirst : ray.firstNearest vertexData triples with
  | none =>
    have hnone := hits_eq_nil.mp (firstNearest_eq_none.mp hfirst)
    refine ⟨⟨none, (ray.searched vertexData outNormal triples).outNormal, ⟨0, 0⟩⟩, ?_, ?_⟩
    · simp [finishSearch, searched, hfirst]
    · exact iff_of_true hnone fun first last h => by rw [hfirst] at h; cases h
  | some first =>
    have hnearest := isNearest_of_firstNearest hfirst
    have hhits : ray.hits vertexData triples ≠ [] := by
      rw [ne_eq, ← firstNearest_eq_none, hfirst]
      exact Option.some_ne_none first
    have hlast : ray.lastHit vertexData triples = some ((ray.hits vertexData triples).getLast hhits) :=
      List.getLast?_eq_some_getLast hhits
    generalize (ray.hits vertexData triples).getLast hhits = last at hlast
    obtain ⟨uv, huv⟩ := isSome_interpolate last.2.outBary (hread first.1 hnearest.mem)
    refine ⟨⟨some first.2.distance, last.2.outNormal, uv⟩, ?_, ?_⟩
    · simp [finishSearch, searched, hfirst, hlast, huv]
    · constructor
      · rintro ⟨indices, hit, hit_nearest, -, hnormal, huv'⟩ first' last' hfirst' hlast'
        obtain rfl := Option.some.inj (hfirst.symm.trans hfirst')
        obtain rfl := Option.some.inj (hlast.symm.trans hlast')
        exact ⟨indices, hit, hit_nearest, hnormal, huv.trans huv'⟩
      · intro hagrees
        obtain ⟨indices, hit, hit_nearest, hnormal, huv'⟩ := hagrees first last hfirst hlast
        refine ⟨indices, hit, hit_nearest, le_antisymm ?_ ?_, hnormal, huv.symm.trans huv'⟩
        · exact hnearest.le indices hit_nearest.mem hit hit_nearest.hitAt
        · exact hit_nearest.le first.1 hnearest.mem first.2 hnearest.hitAt

/-- All vertices of a triangle list are there, and the indices are those of whole triangles. -/
def MeshData.WellFormed (mesh : MeshData K) (triples : List Triple) : Prop :=
  mesh.triples = some triples ∧ ∀ indices ∈ triples, (read mesh.vertexData indices).isSome

/-- The normal and the texture coordinate are those of a nearest triangle if and only if the
last triangle that is hit has them. -/
theorem ofNearest_hitDistanceMesh_iff (hlt : ∀ x y : K, lt x y = true ↔ x < y) (ray : Ray K) {mesh : MeshData K}
    (hmesh : mesh.WellFormed triples) (outNormal : Vector3 K) : ∃ result,
      ray.hitDistanceMesh mesh outNormal = some result ∧
        (OfNearest ray mesh.vertexData triples result ↔ LastAgrees ray mesh.vertexData triples) := by
  obtain ⟨htriples, hread⟩ := hmesh
  obtain ⟨result, hresult, hiff⟩ := finishSearch_searched ray outNormal hread
  refine ⟨result, ?_, hiff⟩
  rw [hitDistanceMesh, htriples]
  simp [foldlM_turn hlt hread, hresult]

end Search

/-- A triangle in front of the origin, and a larger one that is tilted behind it. -/
def tilted : MeshData ℚ :=
  .vertices [⟨⟨-1, -1, 1⟩, 0, 0⟩, ⟨⟨-1, 3, 1⟩, 0, 1⟩, ⟨⟨3, -1, 1⟩, 1, 0⟩,
    ⟨⟨-1, -1, 2⟩, 0, 0⟩, ⟨⟨-1, 5, 3⟩, 0, 1⟩, ⟨⟨5, -1, 2⟩, 1, 0⟩] 0 6

theorem wellFormed_tilted : tilted.WellFormed [(0, 1, 2), (3, 4, 5)] := ⟨rfl, by decide⟩

theorem ofNearest_hitDistanceMesh_iff_tilted : ∃ result,
    (⟨0, ⟨0, 0, 1⟩⟩ : Ray ℚ).hitDistanceMesh tilted 0 = some result ∧
      (OfNearest ⟨0, ⟨0, 0, 1⟩⟩ tilted.vertexData [(0, 1, 2), (3, 4, 5)] result ↔
        LastAgrees ⟨0, ⟨0, 0, 1⟩⟩ tilted.vertexData [(0, 1, 2), (3, 4, 5)]) :=
  ofNearest_hitDistanceMesh_iff (fun _ _ => decide_eq_true_iff) _ wellFormed_tilted 0

/-- The distance is that of the first triangle and the normal that of the second one. -/
theorem not_ofNearest_tilted : ∃ result,
    (⟨0, ⟨0, 0, 1⟩⟩ : Ray ℚ).hitDistanceMesh tilted 0 = some result ∧
      ¬ OfNearest ⟨0, ⟨0, 0, 1⟩⟩ tilted.vertexData [(0, 1, 2), (3, 4, 5)] result := by
  have hrun : (⟨0, ⟨0, 0, 1⟩⟩ : Ray ℚ).hitDistanceMesh tilted 0 = some ⟨some 1, ⟨0, 6, -36⟩, ⟨1 / 6, 1 / 6⟩⟩ := by
    decide +kernel
  refine ⟨_, hrun, ?_⟩
  rintro ⟨indices, hit, hnearest, hdistance, hnormal, -⟩
  have hfront : (⟨0, ⟨0, 0, 1⟩⟩ : Ray ℚ).hitAt tilted.vertexData (0, 1, 2) =
      some ⟨1, ⟨0, 0, -16⟩, ⟨1 / 2, 1 / 4, 1 / 4⟩⟩ := by decide +kernel
  have hbehind : (⟨0, ⟨0, 0, 1⟩⟩ : Ray ℚ).hitAt tilted.vertexData (3, 4, 5) =
      some ⟨13 / 6, ⟨0, 6, -36⟩, ⟨2 / 3, 1 / 6, 1 / 6⟩⟩ := by decide +kernel
  have hhit := hnearest.hitAt
  rcases List.mem_pair.mp hnearest.mem with rfl | rfl
  · rw [hfront] at hhit
    cases hhit
    exact absurd hnormal (by decide)
  · rw [hbehind] at hhit
    cases hhit
    exact absurd hdistance (by decide +kernel)

end Lumos.Maths.Ray
