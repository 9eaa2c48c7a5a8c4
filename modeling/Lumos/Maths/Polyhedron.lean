import Mathlib
import Lumos.Library.ClosedPolygon
import Lumos.Library.Runs
import Lumos.Maths.ExactArithmetic
import Lumos.Maths.Projection

/-!
# `Polyhedron::Clip`

The faces are clipped one by one, and no face is put where the plane has cut through them.
-/
namespace Lumos.Maths

open FloatArithmetic ClosedPolygon Runs

structure Polyhedron (K : Type) where
  faces : List (List (Vector3 K))
  clippedVertices : List (Vector3 K)
  outFace : List (Vector3 K)
  deriving DecidableEq

namespace Polyhedron

section Definitions

variable {K : Type} [FloatArithmetic K] (plane : Plane K)

/-- The variables of the loop over the vertices of a face. -/
structure Walk (K : Type) where
  /-- `j == 0` -/
  first : Bool
  lastVertex : Vector3 K
  lastDistance : K
  outFace : List (Vector3 K)
  clippedVertices : List (Vector3 K)

/-- Where the plane is met on the way from the last vertex to another one. -/
def Walk.addClipped (w : Walk K) (vertex : Vector3 K) (distance : K) : Walk K :=
  let t := w.lastDistance / (w.lastDistance - distance)
  let clippedVertex := w.lastVertex + (vertex - w.lastVertex) * t
  { w with
    outFace := w.outFace ++ [clippedVertex]
    clippedVertices := w.clippedVertices ++ [clippedVertex] }

def Walk.step (w : Walk K) (vertex : Vector3 K) : Walk K :=
  let distance := plane.distance vertex
  let w :=
    if le 0 distance then
      let w := if lt w.lastDistance 0 then w.addClipped vertex distance else w
      { w with outFace := w.outFace ++ [vertex] }
    else if le 0 w.lastDistance && !w.first then w.addClipped vertex distance
    else w
  { w with first := false, lastVertex := vertex, lastDistance := distance }

/-- One turn of the loop over the faces. It fails where the first vertex is read of a face that
has none. -/
def clipFace (clippedVertices : List (Vector3 K)) (face : List (Vector3 K)) : Option (Walk K) := do
  let w := face.foldl (Walk.step plane) ⟨true, 0, 0, [], clippedVertices⟩
  let vertex ← face[0]?
  let distance := plane.distance vertex
  let w :=
    if (lt w.lastDistance 0 && le 0 distance) || (le 0 w.lastDistance && lt distance 0) then
      w.addClipped vertex distance
    else w
  return if w.outFace.length < 3 then { w with outFace := [] } else w

def clipTurn (p : Polyhedron K) (face : List (Vector3 K)) : Option (Polyhedron K) := do
  let w ← clipFace plane p.clippedVertices face
  return ⟨p.faces ++ [w.outFace], w.clippedVertices, w.outFace⟩

/-- `Clip` -/
def clip (p : Polyhedron K) : Option (Polyhedron K) := do
  let p ← p.faces.foldlM (clipTurn plane) ⟨[], [], p.outFace⟩
  return if 3 < p.clippedVertices.length then { p with outFace := p.clippedVertices.take 1 } else p

end Definitions

/-! ## A face -/

section Faces

variable (plane : Plane ℚ)

/-- Where the plane is met between two vertices. -/
def crossing (start endPoint : Vector3 ℚ) : Vector3 ℚ :=
  start + (endPoint - start) * (plane.distance start / (plane.distance start - plane.distance endPoint))

/-- The side of the plane that is kept. -/
def cut : Cut (Vector3 ℚ) := ⟨fun v => le 0 (plane.distance v), crossing plane⟩

variable {plane} {start endPoint v : Vector3 ℚ} {w : Walk ℚ} {face line : List (Vector3 ℚ)}

theorem inside_iff : (cut plane).inside v = true ↔ 0 ≤ plane.distance v := decide_eq_true_iff

theorem inside_eq_false_iff : (cut plane).inside v = false ↔ plane.distance v < 0 :=
  decide_eq_false_iff_not.trans not_le

theorem lt_zero_eq (v : Vector3 ℚ) : lt (plane.distance v) 0 = !(cut plane).inside v := by
  rw [Bool.eq_iff_iff, Bool.not_eq_true', inside_eq_false_iff, lt_rat, decide_eq_true_iff]

/-- It does not matter from where the edge is gone along. -/
theorem crossing_comm (h : plane.distance start ≠ plane.distance endPoint) :
    crossing plane start endPoint = crossing plane endPoint start := by
  have hsub : plane.distance start - plane.distance endPoint ≠ 0 := sub_ne_zero.mpr h
  have hsub' : plane.distance endPoint - plane.distance start ≠ 0 := sub_ne_zero.mpr h.symm
  have hcoord : ∀ a b : ℚ,
      a + (b - a) * (plane.distance start / (plane.distance start - plane.distance endPoint)) =
        b + (a - b) * (plane.distance endPoint / (plane.distance endPoint - plane.distance start)) := by
    intro a b
    field_simp
    ring
  exact (Vector3.mk.injEq ..).mpr ⟨hcoord _ _, hcoord _ _, hcoord _ _⟩

/-- A turn that comes after the first one adds what the cut leaves of the edge. -/
theorem outFace_step (hfirst : w.first = false) (hlast : w.lastDistance = plane.distance w.lastVertex) :
    (w.step plane v).outFace = w.outFace ++ (cut plane).points w.lastVertex v := by
  have hlow : lt w.lastDistance 0 = !(cut plane).inside w.lastVertex := by rw [hlast, lt_zero_eq]
  have hhigh : le 0 w.lastDistance = (cut plane).inside w.lastVertex := by
    rw [hlast]
    rfl
  have hinside : le 0 (plane.distance v) = (cut plane).inside v := rfl
  simp only [Walk.step, hinside, hlow, hhigh, hfirst, Cut.points]
  cases hend : (cut plane).inside v <;> cases hstart : (cut plane).inside w.lastVertex
  · simp
  · simp [Walk.addClipped, cut, crossing, hlast]
  · have hne : plane.distance w.lastVertex ≠ plane.distance v :=
      (lt_of_lt_of_le (inside_eq_false_iff.mp hstart) (inside_iff.mp hend)).ne
    have hcomm := crossing_comm hne
    rw [crossing, ← hlast] at hcomm
    simp [Walk.addClipped, cut, hcomm]
  · simp

/-- The walk along the rest of a face. -/
theorem foldl_step (hfirst : w.first = false) (hlast : w.lastDistance = plane.distance w.lastVertex) :
    (line.foldl (Walk.step plane) w).outFace =
        w.outFace ++ (edgesFrom w.lastVertex line).flatMap (fun edge => (cut plane).points edge.1 edge.2) ∧
      (line.foldl (Walk.step plane) w).lastVertex = (w.lastVertex :: line).getLast (List.cons_ne_nil _ _) ∧
      (line.foldl (Walk.step plane) w).lastDistance =
        plane.distance ((w.lastVertex :: line).getLast (List.cons_ne_nil _ _)) := by
  induction line generalizing w with
  | nil => exact ⟨(List.append_nil _).symm, rfl, hlast⟩
  | cons v line ih =>
    obtain ⟨hout, hvertex, hdistance⟩ := ih (w := w.step plane v) rfl rfl
    refine ⟨?_, hvertex, hdistance⟩
    rw [List.foldl_cons, hout, outFace_step hfirst hlast, edgesFrom, List.flatMap_cons, List.append_assoc]
    rfl

/-- The point on the last edge, which the walk comes to at the end. -/
def closing (plane : Plane ℚ) (last v : Vector3 ℚ) : List (Vector3 ℚ) :=
  if (cut plane).crosses (last, v) then [crossing plane last v] else []

theorem points_eq (last v : Vector3 ℚ) : (cut plane).points last v =
    closing plane last v ++ if (cut plane).inside v then [v] else [] := by
  rw [Cut.points, closing, Cut.crosses]
  cases hstart : (cut plane).inside last <;> cases hend : (cut plane).inside v
  · rfl
  · have hne : plane.distance v ≠ plane.distance last :=
      (lt_of_lt_of_le (inside_eq_false_iff.mp hstart) (inside_iff.mp hend)).ne'
    have hcomm : (cut plane).meet v last = crossing plane last v := crossing_comm hne
    simp [hcomm]
  · rfl
  · rfl

/-- What is left of a face, with the point on its last edge at the end, if it is at least a
triangle. -/
def clipped (plane : Plane ℚ) (face : List (Vector3 ℚ)) : List (Vector3 ℚ) :=
  let out := ((cut plane).clip face).rotate (match face.head?, face.getLast? with
    | some v, some last => (closing plane last v).length
    | _, _ => 0)
  if out.length < 3 then [] else out

/-- The loop goes round the edges from the first vertex on, and its last point is that of the
edge which the cut begins with. -/
theorem clipFace_eq (hface : face ≠ []) (clippedVertices : List (Vector3 ℚ)) :
    ∃ w, clipFace plane clippedVertices face = some w ∧ w.outFace = clipped plane face := by
  obtain ⟨v, line, rfl⟩ := List.exists_cons_of_ne_nil hface
  have hstart : (Walk.step plane ⟨true, 0, 0, [], clippedVertices⟩ v).outFace =
      if (cut plane).inside v then [v] else [] := by
    have hinside : le 0 (plane.distance v) = (cut plane).inside v := rfl
    simp only [Walk.step, hinside]
    cases (cut plane).inside v <;> simp
  obtain ⟨hout, hvertex, hdistance⟩ :=
    @foldl_step plane (Walk.step plane ⟨true, 0, 0, [], clippedVertices⟩ v) line rfl rfl
  have hlast : (v :: line).getLast? = some ((v :: line).getLast (List.cons_ne_nil _ _)) :=
    List.getLast?_eq_some_getLast _
  change _ = (v :: line).getLast (List.cons_ne_nil _ _) at hvertex
  change _ = plane.distance ((v :: line).getLast (List.cons_ne_nil _ _)) at hdistance
  generalize (v :: line).getLast (List.cons_ne_nil _ _) = last at hlast hvertex hdistance
  have hrotate : ((cut plane).clip (v :: line)).rotate (closing plane last v).length =
      (line.foldl (Walk.step plane) (Walk.step plane ⟨true, 0, 0, [], clippedVertices⟩ v)).outFace ++
        closing plane last v := by
    rw [Cut.clip, edges, hlast]
    simp only [edgesFrom, List.flatMap_cons]
    rw [points_eq, List.append_assoc, List.rotate_append_length_eq, hout, hstart]
    rfl
  have hclosing : ∀ w : Walk ℚ, w.lastVertex = last → w.lastDistance = plane.distance last →
      (if (lt w.lastDistance 0 && le 0 (plane.distance v)) || (le 0 w.lastDistance && lt (plane.distance v) 0) then
        w.addClipped v (plane.distance v)
      else w).outFace = w.outFace ++ closing plane last v := by
    intro w hw hw'
    have hhigh : ∀ v, le 0 (plane.distance v) = (cut plane).inside v := fun _ => rfl
    rw [hw', lt_zero_eq, lt_zero_eq, hhigh, hhigh, closing, Cut.crosses]
    cases (cut plane).inside last <;> cases (cut plane).inside v <;> simp [Walk.addClipped, crossing, hw, hw']
  have hface := hclosing _ hvertex hdistance
  rw [← hrotate] at hface
  refine ⟨_, rfl, ?_⟩
  simp only [clipped, List.head?_cons, hlast, ← hface]
  exact apply_ite Walk.outFace _ _ _

theorem mem_clip_of_mem_clipped (h : v ∈ clipped plane face) : v ∈ (cut plane).clip face := by
  simp only [clipped] at h
  split_ifs at h
  · cases h
  · exact List.mem_rotate.mp h

/-- A face in front of the plane stays what it is. -/
theorem clipped_of_front (hthree : 3 ≤ face.length) (h : ∀ v ∈ face, 0 ≤ plane.distance v) :
    clipped plane face = face := by
  have hinside : ∀ v ∈ face, (cut plane).inside v = true := fun v hv => inside_iff.mpr (h v hv)
  obtain ⟨v, line, rfl⟩ := List.exists_cons_of_length_pos (by omega : 0 < face.length)
  obtain ⟨last, hlast⟩ : ∃ last, (v :: line).getLast? = some last := ⟨_, List.getLast?_eq_some_getLast (by simp)⟩
  have hclosing : closing plane last v = [] := by
    rw [closing, Cut.crosses, hinside v List.mem_cons_self, hinside last (List.mem_of_getLast? hlast)]
    rfl
  simp only [clipped, List.head?_cons, hlast, hclosing, List.length_nil, List.rotate_zero,
    Cut.clip_of_inside hinside]
  exact if_neg (not_lt.mpr hthree)

/-- Nothing is left of a face behind it. -/
theorem clipped_of_behind (h : ∀ v ∈ face, plane.distance v < 0) : clipped plane face = [] := by
  have houtside : ∀ v ∈ face, (cut plane).inside v = false := fun v hv => inside_eq_false_iff.mpr (h v hv)
  simp only [clipped, Cut.clip_of_outside houtside, List.rotate_nil]
  rfl

/-! ## Distances -/

variable {other : Plane ℚ}

theorem distance_rat (v : Vector3 ℚ) : other.distance v =
    other.normal.x * v.x + other.normal.y * v.y + other.normal.z * v.z + other.d := rfl

theorem distance_crossing (start endPoint : Vector3 ℚ) : other.distance (crossing plane start endPoint) =
    other.distance start + (other.distance endPoint - other.distance start) *
      (plane.distance start / (plane.distance start - plane.distance endPoint)) := by
  rw [crossing]
  generalize plane.distance start / (plane.distance start - plane.distance endPoint) = t
  have hx : (start + (endPoint - start) * t).x = start.x + (endPoint.x - start.x) * t := rfl
  have hy : (start + (endPoint - start) * t).y = start.y + (endPoint.y - start.y) * t := rfl
  have hz : (start + (endPoint - start) * t).z = start.z + (endPoint.z - start.z) * t := rfl
  rw [distance_rat, distance_rat, distance_rat, hx, hy, hz]
  ring

/-- A point on an edge between a vertex in front of the plane and one behind it is on the plane. -/
theorem distance_crossing_self (hstart : 0 ≤ plane.distance start) (hend : plane.distance endPoint < 0) :
    plane.distance (crossing plane start endPoint) = 0 := by
  have hpos : 0 < plane.distance start - plane.distance endPoint := by linarith
  have hsub := hpos.ne'
  rw [distance_crossing]
  field_simp
  ring

/-- It is in front of every plane that both ends are in front of. -/
theorem distance_crossing_nonneg (hstart : 0 ≤ plane.distance start) (hend : plane.distance endPoint < 0)
    (hstart' : 0 ≤ other.distance start) (hend' : 0 ≤ other.distance endPoint) :
    0 ≤ other.distance (crossing plane start endPoint) := by
  have hsub : 0 < plane.distance start - plane.distance endPoint := by linarith
  have hlow : 0 ≤ plane.distance start / (plane.distance start - plane.distance endPoint) :=
    div_nonneg hstart hsub.le
  have hhigh : plane.distance start / (plane.distance start - plane.distance endPoint) ≤ 1 := by
    rw [div_le_one hsub]
    linarith
  rw [distance_crossing]
  generalize plane.distance start / (plane.distance start - plane.distance endPoint) = t at hlow hhigh
  have hrest : 0 ≤ 1 - t := by linarith
  calc 0 ≤ (1 - t) * other.distance start + t * other.distance endPoint :=
      add_nonneg (mul_nonneg hrest hstart') (mul_nonneg hlow hend')
    _ = other.distance start + (other.distance endPoint - other.distance start) * t := by ring

/-- The vertices that are left are in front of the plane. -/
theorem nonneg_of_mem_clipped (h : v ∈ clipped plane face) : 0 ≤ plane.distance v := by
  refine Cut.forall_clip (P := fun v => 0 ≤ plane.distance v) ?_ ?_ v (mem_clip_of_mem_clipped h)
  · intro vertex _ hin
    exact inside_iff.mp hin
  · intro kept _ dropped _ _ hkept hdropped
    exact (distance_crossing_self (inside_iff.mp hkept) (inside_eq_false_iff.mp hdropped)).ge

theorem nonneg_of_mem_clipped_of_forall (hface : ∀ v ∈ face, 0 ≤ other.distance v) (h : v ∈ clipped plane face) :
    0 ≤ other.distance v := by
  refine Cut.forall_clip (P := fun v => 0 ≤ other.distance v) ?_ ?_ v (mem_clip_of_mem_clipped h)
  · intro vertex hvertex _
    exact hface vertex hvertex
  · intro kept hmem dropped hmem' _ hkept hdropped
    exact distance_crossing_nonneg (inside_iff.mp hkept) (inside_eq_false_iff.mp hdropped) (hface kept hmem)
      (hface dropped hmem')

end Faces

/-! ## All faces -/

section Clips

variable {plane : Plane ℚ} {p : Polyhedron ℚ} {faces : List (List (Vector3 ℚ))}

theorem foldlM_clipTurn (plane : Plane ℚ) (p : Polyhedron ℚ) (h : [] ∉ faces) :
    ∃ p', faces.foldlM (clipTurn plane) p = some p' ∧ p'.faces = p.faces ++ faces.map (clipped plane) := by
  induction faces generalizing p with
  | nil => exact ⟨p, rfl, (List.append_nil _).symm⟩
  | cons face faces ih =>
    rw [List.mem_cons, not_or] at h
    obtain ⟨hface, hfaces⟩ := h
    obtain ⟨w, hw, hout⟩ := clipFace_eq (Ne.symm hface) p.clippedVertices
    have hturn : clipTurn plane p face = some ⟨p.faces ++ [w.outFace], w.clippedVertices, w.outFace⟩ := by
      rw [clipTurn, hw]
      rfl
    obtain ⟨p', hfold, hp'⟩ := ih ⟨p.faces ++ [w.outFace], w.clippedVertices, w.outFace⟩ hfaces
    refine ⟨p', ?_, ?_⟩
    · rw [List.foldlM_cons, hturn]
      exact hfold
    · rw [hp', hout, List.append_assoc, List.map_cons]
      rfl

theorem clip_eq (plane : Plane ℚ) (h : [] ∉ p.faces) :
    ∃ p', p.clip plane = some p' ∧ p'.faces = p.faces.map (clipped plane) := by
  obtain ⟨p', hfold, hfaces⟩ := foldlM_clipTurn plane ⟨[], [], p.outFace⟩ h
  rw [clip, hfold]
  refine ⟨_, rfl, ?_⟩
  split_ifs <;> exact hfaces

/-- A face without vertices is read all the same. -/
theorem clip_of_empty (plane : Plane ℚ) (h : [] ∈ p.faces) : p.clip plane = none := by
  have hfold : ∀ (faces : List (List (Vector3 ℚ))) (p : Polyhedron ℚ), [] ∈ faces →
      faces.foldlM (clipTurn plane) p = none := by
    intro faces
    induction faces with
    | nil => exact fun _ hmem => absurd hmem List.not_mem_nil
    | cons face faces ih =>
      intro p hmem
      rw [List.foldlM_cons]
      cases hturn : clipTurn plane p face with
      | none => rfl
      | some next =>
        rcases List.mem_cons.mp hmem with rfl | hmem
        · cases hturn
        · exact ih next hmem
  rw [clip, hfold _ _ h]
  rfl

/-- Every vertex of the face is in front of the plane, and there are enough for a triangle, or
every one is behind it. -/
def OnOneSide (plane : Plane ℚ) (face : List (Vector3 ℚ)) : Prop :=
  (3 ≤ face.length ∧ ∀ v ∈ face, 0 ≤ plane.distance v) ∨ ∀ v ∈ face, plane.distance v < 0

/-- Where no face is cut, those in front of the plane are closed by themselves. -/
theorem closed_map_clipped (h : Closed faces) (hsides : ∀ face ∈ faces, OnOneSide plane face) :
    Closed (faces.map (clipped plane)) := by
  apply h.map_removed
  · intro face hface
    rcases hsides face hface with ⟨hthree, hfront⟩ | hbehind
    · exact Or.inl (clipped_of_front hthree hfront)
    · exact Or.inr (clipped_of_behind hbehind)
  · intro face hface other hother side hside hside' hkept
    rcases hsides other hother with ⟨hthree, hfront⟩ | hbehind
    · exact clipped_of_front hthree hfront
    · obtain ⟨v, hv, v', hv', rfl⟩ := exists_edge_of_mem_sides hside
      obtain ⟨u, hu, u', hu', heq⟩ := exists_edge_of_mem_sides hside'
      have hmem : v ∈ other := by
        rcases Sym2.eq_iff.mp heq with ⟨rfl, -⟩ | ⟨rfl, -⟩
        · exact hu
        · exact hu'
      rw [← hkept] at hv
      exact absurd (nonneg_of_mem_clipped hv) (not_le.mpr (hbehind v hmem))

end Clips

/-! ## Clip after clip -/

/-- A polyhedron and the planes it has been clipped by. -/
structure Clipping where
  polyhedron : Polyhedron ℚ
  planes : List (Plane ℚ)

namespace Clipping

def perform (s : Clipping) (plane : Plane ℚ) : Option Clipping := do
  let polyhedron ← s.polyhedron.clip plane
  return ⟨polyhedron, s.planes ++ [plane]⟩

def system : System Clipping (Plane ℚ) := ⟨fun _ _ => True, perform⟩

/-- Every vertex is in front of all planes so far. -/
def Satisfied (s : Clipping) : Prop :=
  ∀ face ∈ s.polyhedron.faces, ∀ v ∈ face, ∀ plane ∈ s.planes, 0 ≤ plane.distance v

/-- What a clip should do. -/
structure Clips (s : Clipping) (_ : Plane ℚ) (t : Clipping) : Prop where
  satisfied : t.Satisfied
  closed : Closed s.polyhedron.faces → Closed t.polyhedron.faces

/-- There is no empty face, and no face of a closed polyhedron is cut. -/
structure Uncut (s : Clipping) (plane : Plane ℚ) : Prop where
  nonempty : [] ∉ s.polyhedron.faces
  uncut : Closed s.polyhedron.faces → ∀ face ∈ s.polyhedron.faces, OnOneSide plane face

variable {s t : Clipping} {plane : Plane ℚ}

/-- Whether faces are cut or not, planes that have been satisfied stay so. -/
theorem Satisfied.perform (h : s.Satisfied) (hnonempty : [] ∉ s.polyhedron.faces) (plane : Plane ℚ) :
    ∃ t, Clipping.perform s plane = some t ∧ t.Satisfied ∧
      t.polyhedron.faces = s.polyhedron.faces.map (clipped plane) := by
  obtain ⟨p, hclip, hfaces⟩ := clip_eq plane hnonempty
  refine ⟨⟨p, s.planes ++ [plane]⟩, ?_, ?_, hfaces⟩
  · rw [Clipping.perform, hclip]
    rfl
  · intro face' hface' v hv other hother
    obtain ⟨face, hface, rfl⟩ := List.mem_map.mp (hfaces ▸ hface')
    rcases List.mem_append.mp hother with hother | hother
    · exact nonneg_of_mem_clipped_of_forall (fun u hu => h face hface u hu other hother) hv
    · rw [List.mem_singleton.mp hother]
      exact nonneg_of_mem_clipped hv

/-- In every run where no clip finds an empty face or cuts a closed polyhedron. -/
theorem performs_clips (polyhedron : Polyhedron ℚ) (planes : List (Plane ℚ))
    (h : system.Throughout Uncut ⟨polyhedron, []⟩ planes) : system.Performs Clips ⟨polyhedron, []⟩ planes := by
  have hstart : Satisfied ⟨polyhedron, []⟩ := fun _ _ _ _ _ h => absurd h List.not_mem_nil
  apply (System.performs_iff_throughout_of (I := Satisfied) (C := fun _ _ => True) ?_ ?_ planes hstart h).mpr
    (System.throughout_true planes)
  · intro s plane hs _ huncut _
    obtain ⟨t, hperform, ht, hfaces⟩ := hs.perform huncut.nonempty plane
    refine ⟨t, hperform, ⟨ht, fun hclosed => ?_⟩, ht⟩
    rw [hfaces]
    exact closed_map_clipped hclosed (huncut.uncut hclosed)
  · exact fun _ _ _ _ _ hnot => absurd trivial hnot

/-- A run that does what it should finds no empty face. -/
theorem nonempty_of_performs {planes : List (Plane ℚ)} (h : system.Performs Clips s planes) :
    system.Throughout (fun s _ => [] ∉ s.polyhedron.faces) s planes := by
  induction planes generalizing s with
  | nil => trivial
  | cons plane planes ih =>
    obtain ⟨t, hperform, -, hrest⟩ := h trivial
    refine fun _ => ⟨fun hempty => ?_, fun t' ht' => ?_⟩
    · change Clipping.perform s plane = some t at hperform
      rw [Clipping.perform, clip_of_empty plane hempty] at hperform
      cases hperform
    · cases hperform.symm.trans ht'
      exact ih hrest

/-- Three faces along the axes and a fourth one across them. -/
def tetrahedron : Polyhedron ℚ where
  faces :=
    [[⟨0, 0, 0⟩, ⟨0, 1, 0⟩, ⟨1, 0, 0⟩], [⟨0, 0, 0⟩, ⟨1, 0, 0⟩, ⟨0, 0, 1⟩], [⟨0, 0, 0⟩, ⟨0, 0, 1⟩, ⟨0, 1, 0⟩],
      [⟨1, 0, 0⟩, ⟨0, 1, 0⟩, ⟨0, 0, 1⟩]]
  clippedVertices := []
  outFace := []

/-- All points from some height on. -/
def above (height : ℚ) : Plane ℚ := ⟨⟨0, 0, 1⟩, ⟨0, 0, 1⟩, -height⟩

theorem performs_clips_tetrahedron : system.Performs Clips ⟨tetrahedron, []⟩ [above (-1)] := by
  apply performs_clips
  refine fun _ => ⟨⟨by decide, fun _ => ?_⟩, fun _ _ => trivial⟩
  have hfront : ∀ face ∈ tetrahedron.faces, 3 ≤ face.length ∧ ∀ v ∈ face, 0 ≤ (above (-1)).distance v := by
    decide +kernel
  exact fun face hface => Or.inl (hfront face hface)

/-- The tetrahedron is open where it has been cut. -/
theorem not_performs_tetrahedron : Closed tetrahedron.faces ∧
    ¬ system.Performs Clips ⟨tetrahedron, []⟩ [above (1 / 2)] := by
  have hclosed : Closed tetrahedron.faces := by decide +kernel
  refine ⟨hclosed, fun h => ?_⟩
  obtain ⟨t, hperform, hclips, -⟩ := h trivial
  obtain ⟨p, hclip, hfaces⟩ := clip_eq (above (1 / 2)) (by decide : [] ∉ tetrahedron.faces)
  have ht : t = ⟨p, [above (1 / 2)]⟩ := by
    change Clipping.perform _ _ = some t at hperform
    rw [Clipping.perform, hclip] at hperform
    exact (Option.some.inj hperform).symm
  have hclosed' := hclips.closed hclosed
  rw [ht, hfaces] at hclosed'
  exact absurd hclosed' (by decide +kernel)

end Clipping

end Polyhedron

end Lumos.Maths
