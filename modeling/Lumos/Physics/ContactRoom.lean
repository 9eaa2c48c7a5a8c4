import Lumos.Physics.CollisionHistory
import Lumos.Physics.ContactGeneration

/-!
# Where contacts stay within their arrays

A face has to go into arrays of eight entries with its vertices and with the planes round it,
and the polygon has to go through them while it is clipped. Then there is room for the contacts.
-/
namespace Lumos.Physics.ContactGeneration

open Maths FloatArithmetic FixedArray DoubleBuffer CollisionDetection
open Physics.Dynamics (Manifold Offer maxContactPoints)

variable {K : Type}

/-! ## Faces in the world -/

/-- What a body hands out, apart from the arrays. -/
structure WorldFace (K : Type) where
  vertices : List (Vector3 K)
  planes : List (Plane K)
  normal : Vector3 K

/-- An array of eight with some entries at its front. -/
structure Holds {α : Type} (array : List α × Nat) (entries : List α) : Prop where
  length : array.1.length = 8
  count : array.2 = entries.length
  entries_le : entries.length ≤ 8
  front : array.1.take array.2 = entries

theorem foldlM_store_eight {α : Type} (d : α) (entries : List α) :
    (entries.length ≤ 8 → ∃ array, entries.foldlM store (List.replicate 8 d, 0) = some array ∧ Holds array entries) ∧
      (8 < entries.length → entries.foldlM store (List.replicate 8 d, 0) = none) := by
  rw [foldlM_store _ _ (Nat.zero_le _), List.length_replicate, Nat.zero_add]
  constructor
  · intro hle
    refine ⟨_, if_pos hle, ?_, rfl, hle, ?_⟩
    · simp only [List.take_zero, List.nil_append, List.length_append, List.length_drop, List.length_replicate]
      omega
    · exact List.take_left
  · exact fun hlt => if_neg (not_le.mpr hlt)

section Faces

variable [FloatArithmetic K]

def worldFace (shape : FacedShape K) (obj : Pose K) (axis : Vector3 K) : WorldFace K :=
  match shape.data with
  | .sphere radius | .capsule radius _ => ⟨[obj.position + axis * radius], [], axis⟩
  | .cuboid | .pyramid _ | .hull _ =>
    match facing shape obj axis with
    | none => ⟨[], [], Vector3.normalize 0⟩
    | some face =>
      ⟨face.vertIds.map (wsVertex shape obj), adjacentPlanes shape obj face,
        ((shape.transform obj).toMatrix3.inverse.transpose.apply face.normal).normalize⟩

/-- The arrays have what the body hands out. -/
structure Stores (poly : ReferencePolygon K) (face : WorldFace K) : Prop where
  faces : Holds poly.faces face.vertices
  planes : Holds poly.adjacentPlanes face.planes
  normal : poly.normal = face.normal

/-- Both arrays are long enough. -/
def Contained (face : WorldFace K) : Prop := face.vertices.length ≤ 8 ∧ face.planes.length ≤ 8

/-- The arrays are filled if they are long enough. -/
structure Answers (result : Option (ReferencePolygon K)) (face : WorldFace K) : Prop where
  stores : Contained face → ∃ poly, result = some poly ∧ Stores poly face
  fails : ¬ Contained face → result = none

omit [FloatArithmetic K] in
theorem answers_of_stores {poly : ReferencePolygon K} {face : WorldFace K} (h : Stores poly face) :
    Answers (some poly) face where
  stores _ := ⟨poly, rfl, h⟩
  fails hnot := absurd ⟨h.faces.entries_le, h.planes.entries_le⟩ hnot

theorem holds_create {α : Type} (d : α) : Holds (List.replicate 8 d, 0) [] :=
  ⟨List.length_replicate, rfl, Nat.zero_le _, rfl⟩

theorem holds_singleton (v : Vector3 K) : Holds ((List.replicate 8 (0 : Vector3 K)).set 0 v, 1) [v] :=
  ⟨rfl, rfl, Nat.succ_le_succ (Nat.zero_le _), rfl⟩

/-- The loops over the vertices and the planes of a face. -/
theorem answers_store (face : WorldFace K) : Answers (do
    let faces ← face.vertices.foldlM store (ReferencePolygon.create : ReferencePolygon K).faces
    let planes ← face.planes.foldlM store (ReferencePolygon.create : ReferencePolygon K).adjacentPlanes
    some ⟨faces, planes, face.normal⟩) face := by
  obtain ⟨hfaces, hfacesFail⟩ := foldlM_store_eight (0 : Vector3 K) face.vertices
  obtain ⟨hplanes, hplanesFail⟩ := foldlM_store_eight (Plane.zero : Plane K) face.planes
  constructor
  · rintro ⟨hvertices, hround⟩
    obtain ⟨faces, hstored, hholds⟩ := hfaces hvertices
    obtain ⟨planes, hstored', hholds'⟩ := hplanes hround
    refine ⟨⟨faces, planes, face.normal⟩, ?_, hholds, hholds', rfl⟩
    rw [ReferencePolygon.create, hstored, Option.bind_eq_bind, Option.bind_some, hstored']
    rfl
  · intro hnot
    rcases Nat.lt_or_ge 8 face.vertices.length with hlt | hle
    · rw [ReferencePolygon.create, hfacesFail hlt]
      rfl
    · have hlt : 8 < face.planes.length := by
        by_contra hge
        exact hnot ⟨hle, not_lt.mp hge⟩
      obtain ⟨faces, hstored, -⟩ := hfaces hle
      rw [ReferencePolygon.create, hstored, Option.bind_eq_bind, Option.bind_some, hplanesFail hlt]
      rfl

theorem answers_getIncidentReferencePolygon (shape : FacedShape K) (obj : Pose K) (axis : Vector3 K) :
    Answers (getIncidentReferencePolygon shape obj axis) (worldFace shape obj axis) := by
  cases hdata : shape.data with
  | sphere radius =>
    simp only [getIncidentReferencePolygon, worldFace, hdata]
    exact answers_of_stores ⟨holds_singleton _, holds_create _, rfl⟩
  | capsule radius height =>
    simp only [getIncidentReferencePolygon, worldFace, hdata]
    exact answers_of_stores ⟨holds_singleton _, holds_create _, rfl⟩
  | cuboid =>
    simp only [getIncidentReferencePolygon, worldFace, hdata]
    cases facing shape obj axis with
    | none => exact answers_of_stores ⟨holds_create _, holds_create _, rfl⟩
    | some face => exact answers_store ⟨face.vertIds.map (wsVertex shape obj), adjacentPlanes shape obj face, _⟩
  | pyramid normals =>
    simp only [getIncidentReferencePolygon, worldFace, hdata]
    cases facing shape obj axis with
    | none => exact answers_of_stores ⟨holds_create _, holds_create _, rfl⟩
    | some face => exact answers_store ⟨face.vertIds.map (wsVertex shape obj), adjacentPlanes shape obj face, _⟩
  | hull mesh =>
    simp only [getIncidentReferencePolygon, worldFace, hdata]
    cases facing shape obj axis with
    | none => exact answers_of_stores ⟨holds_create _, holds_create _, rfl⟩
    | some face => exact answers_store ⟨face.vertIds.map (wsVertex shape obj), adjacentPlanes shape obj face, _⟩

/-! ## Clipping -/

/-- What the calls leave in an array of eight stays in one. -/
theorem clipping_spec {removePoints : Bool} {planes : List (Plane K)} {array : List (Vector3 K) × Nat}
    {polygon : List (Vector3 K)} (h : Holds array polygon) :
    ((∀ init, init <+: planes → (clipAll removePoints init polygon).length ≤ 8) →
      ∃ array', sutherlandHodgesonClipping array.1 array.2 planes removePoints = some array' ∧
        array'.1.length = 8 ∧ array'.2 ≤ 8) ∧
    ((¬ ∀ init, init <+: planes → (clipAll removePoints init polygon).length ≤ 8) →
      sutherlandHodgesonClipping array.1 array.2 planes removePoints = none) := by
  have hcount : array.2 ≤ 8 := h.count ▸ h.entries_le
  have hiff : (turns (clipPlane removePoints) planes ⟨List.replicate 8 0, array.1, array.2, true⟩).isSome ↔ _ :=
    isSome_turns_iff fills_clipPlane (clip_nil removePoints) List.length_replicate h.length hcount
  simp only [h.front] at hiff
  rw [fits_iff_isPrefix h.entries_le] at hiff
  rw [sutherlandHodgesonClipping]
  cases hturns : turns (clipPlane removePoints) planes ⟨List.replicate 8 0, array.1, array.2, true⟩ with
  | none =>
    rw [hturns] at hiff
    exact ⟨fun hfits => absurd (hiff.mpr hfits) Bool.false_ne_true, fun _ => rfl⟩
  | some buffers =>
    rw [hturns] at hiff
    obtain ⟨hinput, houtput, hle⟩ := length_of_turns fills_clipPlane List.length_replicate h.length hcount hturns
    refine ⟨fun _ => ⟨_, rfl, ?_, hle⟩, fun hnot => absurd (hiff.mp rfl) hnot⟩
    rw [Buffers.homeArray]
    split
    · exact houtput
    · exact hinput

/-- Vertices are only removed when points are. -/
theorem clipping_removePoints {plane : Plane K} {array : List (Vector3 K) × Nat} (hlength : array.1.length = 8)
    (hcount : array.2 ≤ 8) : ∃ array', sutherlandHodgesonClipping array.1 array.2 [plane] true = some array' ∧
      array'.1.length = 8 ∧ array'.2 ≤ 8 := by
  have hentries : (array.1.take array.2).length = array.2 := by
    rw [List.length_take, hlength, Nat.min_eq_left hcount]
  have hholds : Holds array (array.1.take array.2) := ⟨hlength, hentries.symm, hentries.trans_le hcount, rfl⟩
  refine (clipping_spec hholds).1 fun init hinit => ?_
  have hfilter : (array.1.take array.2).length ≤ 8 := hentries.trans_le hcount
  cases init with
  | nil => exact hfilter
  | cons p init =>
    obtain ⟨rfl, hrest⟩ := List.cons_prefix_cons.mp hinit
    rw [List.prefix_nil.mp hrest]
    exact (List.length_filter_le _ _).trans hfilter

end Faces

/-! ## Contacts -/

section Manifolds

variable {n : Nat} [FloatInfinity K]

/-- A call adds one contact at most. -/
theorem addContact_of_lt {m : Manifold n K} (offer : Offer n K) (h : m.contacts.length < maxContactPoints) :
    ∃ m', m.addContact offer = some m' ∧ m'.contacts.length ≤ m.contacts.length + 1 := by
  obtain ⟨hperm, -⟩ := SwapRemove.sweep_all (Manifold.yields (m.newContact offer))
    (fun c => c.near (m.newContact offer)) m.contacts
  have hle := hperm.length_eq.trans_le
    (SwapRemove.subperm_sweep (Manifold.yields (m.newContact offer)) m.contacts).length_le
  rw [Manifold.addContact]
  simp only
  split
  · rw [if_pos (Nat.lt_of_le_of_lt hle h)]
    refine ⟨_, rfl, ?_⟩
    rw [List.length_append]
    exact Nat.succ_le_succ hle
  · exact ⟨_, rfl, Nat.le_succ_of_le hle⟩

theorem foldlM_addContact {m : Manifold n K} (offers : List (Offer n K))
    (h : m.contacts.length + offers.length ≤ maxContactPoints) : (offers.foldlM Manifold.addContact m).isSome := by
  induction offers generalizing m with
  | nil => rfl
  | cons offer offers ih =>
    rw [List.length_cons] at h
    obtain ⟨m', hadd, hle⟩ := addContact_of_lt (m := m) offer (by omega)
    rw [List.foldlM_cons, hadd]
    exact ih (by omega)

/-! ## All arrays -/

/-- The polygon that is clipped, and the planes it is clipped by. -/
def incident (coldata : CollisionData K) (face1 face2 : WorldFace K) : List (Vector3 K) × List (Plane K) :=
  if lt (fabs (coldata.normal.dotProduct face2.normal)) (fabs (coldata.normal.dotProduct face1.normal)) then
    (face2.vertices, face1.planes)
  else (face1.vertices, face2.planes)

/-- Both faces go into their arrays and, where neither is a single point, no plane leaves more than
eight vertices of the polygon that is clipped. -/
structure HasRoom (coldata : CollisionData K) (face1 face2 : WorldFace K) : Prop where
  first : Contained face1
  second : Contained face2
  clipping : 2 ≤ face1.vertices.length → 2 ≤ face2.vertices.length →
    ∀ init, init <+: (incident coldata face1 face2).2 →
      (clipAll false init (incident coldata face1 face2).1).length ≤ 8

theorem holds_chooseReference {coldata : CollisionData K} {poly1 poly2 : ReferencePolygon K} {face1 face2 : WorldFace K}
    (h1 : Stores poly1 face1) (h2 : Stores poly2 face2) :
    Holds (chooseReference coldata poly1 poly2).incPolygon (incident coldata face1 face2).1 ∧
      Holds (chooseReference coldata poly1 poly2).refAdjPlanes (incident coldata face1 face2).2 := by
  rw [chooseReference, incident, h1.normal, h2.normal]
  split
  · exact ⟨h2.faces, h1.planes⟩
  · exact ⟨h1.faces, h2.planes⟩

end Manifolds

/-! ## A sheet of triangles -/

/-- Four triangles in a plane, both sides of each of them. Every edge of the one in the middle is an
edge of three other faces. -/
def sheet : FacedShape ℚ :=
  .mesh (buildFromMesh ([⟨3, 0, 0⟩, ⟨3, 0, 4⟩, ⟨0, 0, 4⟩, ⟨0, 0, 0⟩, ⟨6, 0, 0⟩, ⟨0, 0, 8⟩].map fun p => (p, ⟨0, 1, 0⟩))
    [0, 1, 2, 0, 2, 1, 3, 0, 2, 3, 2, 0, 0, 4, 1, 0, 1, 4, 2, 1, 5, 2, 5, 1]) ⟨1, 1, 1⟩

def box : FacedShape ℚ := .cuboid ⟨1, 1, 1⟩

/-- A body that is not turned. -/
def bodyAt (shape : FacedShape ℚ) (position : Vector3 ℚ) : Dynamics.RigidBody3D ℚ :=
  .create ⟨position, 0, 0, 1, ⟨1, 0, 0, 0⟩, 0, 0, false, 1, 1, false, some ⟨shape.toShapeParameters, ⟨1, 1, 1⟩⟩⟩

end Lumos.Physics.ContactGeneration
