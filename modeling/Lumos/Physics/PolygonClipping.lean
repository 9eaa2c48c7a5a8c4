import Lumos.Library.ClosedPolygon
import Lumos.Library.DoubleBuffer
import Lumos.Library.FixedArray
import Lumos.Maths.Projection

/-!
# `SutherlandHodgesonClipping`

A polygon is clipped by one plane after the other, from the array of the caller into a local
one and back.
-/
namespace Lumos.Maths.Plane

open FloatArithmetic

variable {K : Type} [FloatArithmetic K]

/-- `Plane(normal, distance)` -/
def ofDistance (normal : Vector3 K) (distance : K) : Plane K :=
  let normal := normal.normalize
  ⟨normal, ⟨fabs normal.x, fabs normal.y, fabs normal.z⟩, distance⟩

def pointInPlane (plane : Plane K) (position : Vector3 K) : Bool :=
  le (-epsilon) (position.dotProduct plane.normal + plane.distance (Vector3.fill 0))

end Lumos.Maths.Plane

namespace Lumos.Physics.CollisionDetection

open Maths FloatArithmetic FixedArray ClosedPolygon DoubleBuffer

variable {K : Type} [FloatArithmetic K]

/-- `PlaneEdgeIntersection` -/
def planeEdgeIntersection (plane : Plane K) (start endPoint : Vector3 K) : Vector3 K :=
  let ab := endPoint - start
  let ab_p := plane.normal.dotProduct ab
  if lt epsilon (fabs ab_p) then
    let p_co := plane.normal * (-plane.distance (Vector3.fill 0))
    let w := start - p_co
    let fac := -plane.normal.dotProduct w / ab_p
    start + ab * fac
  else start

/-- What is written for an edge, in order. -/
def clipEdge (plane : Plane K) (removePoints : Bool) (startPoint endPoint : Vector3 K) : List (Vector3 K) :=
  let startInPlane := plane.pointInPlane startPoint
  let endInPlane := plane.pointInPlane endPoint
  if removePoints then
    if endInPlane then [endPoint] else []
  else if startInPlane && endInPlane then
    [endPoint]
  else if startInPlane && !endInPlane then
    [planeEdgeIntersection plane startPoint endPoint]
  else if !startInPlane && endInPlane then
    [planeEdgeIntersection plane endPoint startPoint, endPoint]
  else []

/-- One turn of the loop over the edges, from the start point and the output so far. -/
def clipTurn (plane : Plane K) (removePoints : Bool) (s : Vector3 K × (List (Vector3 K) × Nat))
    (endPoint : Vector3 K) : Option (Vector3 K × (List (Vector3 K) × Nat)) :=
  ((clipEdge plane removePoints s.1 endPoint).foldlM store s.2).map fun output => (endPoint, output)

/-- One turn of the loop over the planes: the edges of the polygon in `input` are clipped into
`output`. -/
def clipPlane (removePoints : Bool) (plane : Plane K) (input : List (Vector3 K)) (inputCount : Nat)
    (output : List (Vector3 K)) : Option (List (Vector3 K) × Nat) := do
  let startPoint ← input[inputCount - 1]?
  let clipped ← (input.take inputCount).foldlM (clipTurn plane removePoints) (startPoint, (output, 0))
  some clipped.2

/-- The array and the number of entries that are left, where the polygon's own array is passed
for the output too; `none` where an entry out of an array's bounds is read or written. -/
def sutherlandHodgesonClipping (input_polygon : List (Vector3 K)) (input_polygon_count : Nat)
    (clip_planes : List (Plane K)) (removePoints : Bool) : Option (List (Vector3 K) × Nat) := do
  let clipped ← turns (clipPlane removePoints) clip_planes
    ⟨List.replicate 8 0, input_polygon, input_polygon_count, true⟩
  some (clipped.homeArray, clipped.outputCount)

/-! ## One plane -/

/-- The side of a plane a polygon is cut to. -/
def cutBy (plane : Plane K) : Cut (Vector3 K) := ⟨plane.pointInPlane, planeEdgeIntersection plane⟩

/-- What a plane leaves of a polygon. -/
def clip (removePoints : Bool) (plane : Plane K) (polygon : List (Vector3 K)) : List (Vector3 K) :=
  if removePoints then polygon.filter plane.pointInPlane else (cutBy plane).clip polygon

section Clip

variable {removePoints : Bool} {plane : Plane K} {polygon : List (Vector3 K)}

theorem clipEdge_true (startPoint endPoint : Vector3 K) :
    clipEdge plane true startPoint endPoint = [endPoint].filter plane.pointInPlane := by
  unfold clipEdge
  cases h : plane.pointInPlane endPoint <;> simp [h]

theorem clipEdge_false (startPoint endPoint : Vector3 K) :
    clipEdge plane false startPoint endPoint = (cutBy plane).points startPoint endPoint := by
  unfold clipEdge Cut.points cutBy
  cases hstart : plane.pointInPlane startPoint <;> cases hend : plane.pointInPlane endPoint <;> simp [hstart, hend]

/-- Going round the edges. -/
theorem flatMap_clipEdge (removePoints : Bool) (plane : Plane K) (polygon : List (Vector3 K)) :
    (edges polygon).flatMap (fun edge => clipEdge plane removePoints edge.1 edge.2) =
      clip removePoints plane polygon := by
  cases removePoints with
  | false =>
    simp only [clipEdge_false]
    rfl
  | true =>
    simp only [clipEdge_true]
    rw [clip, if_pos rfl, ← List.filter_flatMap, ← List.map_eq_flatMap, map_snd_edges]

theorem clip_nil (removePoints : Bool) (plane : Plane K) : clip removePoints plane [] = [] := by
  cases removePoints <;> rfl

/-- A vertex in the plane is kept. -/
theorem mem_clip_of_pointInPlane {v : Vector3 K} (h : v ∈ polygon) (hin : plane.pointInPlane v = true) :
    v ∈ clip removePoints plane polygon := by
  cases removePoints with
  | false => exact (cutBy plane).mem_clip_of_inside h hin
  | true => exact List.mem_filter.mpr ⟨h, hin⟩

theorem foldlM_clipTurn (startPoint : Vector3 K) (line : List (Vector3 K)) (output : List (Vector3 K) × Nat) :
    (line.foldlM (clipTurn plane removePoints) (startPoint, output)).map Prod.snd =
      ((edgesFrom startPoint line).flatMap fun edge =>
        clipEdge plane removePoints edge.1 edge.2).foldlM store output := by
  induction line generalizing startPoint output with
  | nil => rfl
  | cons endPoint rest ih =>
    rw [List.foldlM_cons, edgesFrom, List.flatMap_cons, List.foldlM_append, clipTurn]
    cases (clipEdge plane removePoints startPoint endPoint).foldlM store output with
    | none => rfl
    | some output => exact ih endPoint output

/-- A plane's turn writes what it leaves of the polygon, if there is room. -/
theorem clipPlane_eq {input output : List (Vector3 K)} {inputCount : Nat} (hpos : 0 < inputCount)
    (hcount : inputCount ≤ input.length) :
    clipPlane removePoints plane input inputCount output =
      (clip removePoints plane (input.take inputCount)).foldlM store (output, 0) := by
  have hstart : input[inputCount - 1]? = (input.take inputCount).getLast? := by
    rw [List.getLast?_eq_getElem?, List.length_take, Nat.min_eq_left hcount, List.getElem?_take_of_lt (by omega)]
  rw [clipPlane, hstart, ← flatMap_clipEdge, edges]
  cases hlast : (input.take inputCount).getLast? with
  | none =>
    have hlength := congrArg List.length (List.getLast?_eq_none_iff.mp hlast)
    rw [List.length_take, List.length_nil] at hlength
    omega
  | some startPoint =>
    rw [← foldlM_clipTurn, Option.map_eq_bind]
    rfl

/-- A plane's turn fails only out of bounds. -/
theorem clipPlane_spec {input output : List (Vector3 K)} {inputCount : Nat} (hpos : 0 < inputCount) :
    clipPlane removePoints plane input inputCount output =
      if inputCount ≤ input.length ∧ (clip removePoints plane (input.take inputCount)).length ≤ output.length then
        some (clip removePoints plane (input.take inputCount) ++
          output.drop (clip removePoints plane (input.take inputCount)).length,
          (clip removePoints plane (input.take inputCount)).length)
      else none := by
  by_cases hcount : inputCount ≤ input.length
  · rw [clipPlane_eq hpos hcount, foldlM_store _ _ (Nat.zero_le _)]
    simp [hcount]
  · rw [if_neg fun h => hcount h.1, clipPlane, List.getElem?_eq_none (by omega)]
    rfl

end Clip

/-! ## All the planes -/

/-- What the planes leave of a polygon. -/
def clipAll (removePoints : Bool) (planes : List (Plane K)) (polygon : List (Vector3 K)) : List (Vector3 K) :=
  result (clip removePoints) planes polygon

/-- The planes up to the one that leaves nothing. -/
def clippedBy (removePoints : Bool) (planes : List (Plane K)) (polygon : List (Vector3 K)) : List (Plane K) :=
  performed (clip removePoints) planes polygon

section All

variable {removePoints : Bool} {planes : List (Plane K)} {polygon : List (Vector3 K)}

theorem fills_clipPlane : Fills (clipPlane (K := K) removePoints) (clip removePoints) := by
  intro plane input inputCount output hpos
  exact clipPlane_spec hpos

theorem mem_clipAll_of_pointInPlane {v : Vector3 K} (h : v ∈ polygon)
    (hin : ∀ plane ∈ planes, plane.pointInPlane v = true) : v ∈ clipAll removePoints planes polygon := by
  induction planes generalizing polygon with
  | nil => exact h
  | cons plane rest ih =>
    obtain ⟨hplane, hrest⟩ := List.forall_mem_cons.mp hin
    exact ih (mem_clip_of_pointInPlane h hplane) hrest

end All

end Lumos.Physics.CollisionDetection
