import Mathlib.Data.List.Forall2
import Lumos.Physics.CollisionShape
import Lumos.Physics.HullMesh

/-!
# What the lists of a hull say

Whatever vertices and faces have been added, the lists of a hull name exactly what belongs
together, and nothing twice.
-/
namespace Lumos.Physics.HullMesh

open Maths FloatArithmetic
open Library.PairedRows

variable {K : Type}

/-! ## Calls -/

inductive Call (K : Type) where
  | addVertex (v : Vector3 K)
  | addFace (normal : Vector3 K) (verts : List Nat)

def Hull.call [FloatArithmetic K] (h : Hull K) : Call K → Hull K
  | .addVertex v => h.addVertex v
  | .addFace normal verts => h.addFace normal verts

def run [FloatArithmetic K] (calls : List (Call K)) : Hull K := calls.foldl Hull.call Hull.empty

/-- The corners of a face: three at least, all different, and all of them there. -/
structure Corners (numVertices : Nat) (verts : List Nat) : Prop where
  three : 3 ≤ verts.length
  nodup : verts.Nodup
  valid : ∀ v ∈ verts, v < numVertices

/-- Every face has corners among the vertices there are by then. -/
def WellFormed : Nat → List (Call K) → Prop
  | _, [] => True
  | numVertices, .addVertex _ :: calls => WellFormed (numVertices + 1) calls
  | numVertices, .addFace _ verts :: calls => Corners numVertices verts ∧ WellFormed numVertices calls

/-! ## What is promised -/

/-- A list names exactly the positions that are asked for, each once. -/
structure Lists (ids : List Nat) (P : Nat → Prop) : Prop where
  nodup : ids.Nodup
  mem_iff : ∀ i, i ∈ ids ↔ P i

def HullEdge.HasEnd (edge : HullEdge) (v : Nat) : Prop := edge.vStart = v ∨ edge.vEnd = v

def HullEdge.Meets (edge edge' : HullEdge) : Prop := edge'.HasEnd edge.vStart ∨ edge'.HasEnd edge.vEnd

/-- The same unordered pair of vertices. -/
def HullEdge.Joins (edge : HullEdge) (side : Nat × Nat) : Prop :=
  (edge.vStart = side.1 ∧ edge.vEnd = side.2) ∨ (edge.vStart = side.2 ∧ edge.vEnd = side.1)

def HullFace.Borders (face face' : HullFace K) : Prop := ∃ e ∈ face.edgeIds, e ∈ face'.edgeIds

structure VertexConsistent (h : Hull K) (v : Nat) (vertex : HullVertex K) : Prop where
  idx : vertex.idx = v
  edges : Lists vertex.enclosingEdges fun e => ∃ edge, h.edges[e]? = some edge ∧ edge.HasEnd v
  faces : Lists vertex.enclosingFaces fun f => ∃ face, h.faces[f]? = some face ∧ v ∈ face.vertIds

structure EdgeConsistent (h : Hull K) (e : Nat) (edge : HullEdge) : Prop where
  idx : edge.idx = e
  ends : edge.vStart ≠ edge.vEnd ∧ edge.vStart < h.vertices.length ∧ edge.vEnd < h.vertices.length
  unique : ∀ e' edge', h.edges[e']? = some edge' → edge.Joins (edge'.vStart, edge'.vEnd) → e = e'
  adjoining : Lists edge.adjoiningEdgeIds fun e' => e' ≠ e ∧ ∃ edge', h.edges[e']? = some edge' ∧ edge.Meets edge'
  symmetric : ∀ e' edge', h.edges[e']? = some edge' → (e' ∈ edge.adjoiningEdgeIds ↔ e ∈ edge'.adjoiningEdgeIds)
  faces : Lists edge.enclosingFaces fun f => ∃ face, h.faces[f]? = some face ∧ e ∈ face.edgeIds
  used : edge.enclosingFaces ≠ []

/-- The edges of a face go round its corners. -/
structure FaceConsistent (h : Hull K) (f : Nat) (face : HullFace K) : Prop where
  idx : face.idx = f
  sides : List.Forall₂ (fun e side => ∃ edge, h.edges[e]? = some edge ∧ edge.Joins side) face.edgeIds
    (ClosedPolygon.edges face.vertIds)
  nodup : face.edgeIds.Nodup
  adjoining : Lists face.adjoiningFaceIds fun f' => f' ≠ f ∧ ∃ face', h.faces[f']? = some face' ∧ face.Borders face'
  symmetric : ∀ f' face', h.faces[f']? = some face' → (f' ∈ face.adjoiningFaceIds ↔ f ∈ face'.adjoiningFaceIds)

structure Consistent (h : Hull K) : Prop where
  vertices : ∀ v vertex, h.vertices[v]? = some vertex → VertexConsistent h v vertex
  edges : ∀ e edge, h.edges[e]? = some edge → EdgeConsistent h e edge
  faces : ∀ f face, h.faces[f]? = some face → FaceConsistent h f face

/-! ## Sound skeletons -/

def Joined (edges : List (Nat × Nat)) (e : Nat) (side : Nat × Nat) : Prop :=
  ∃ p, edges[e]? = some p ∧ joins p.1 p.2 side.1 side.2 = true

/-- What holds of a skeleton whose last face may still lack some sides. -/
structure Growing (numVertices : Nat) (edges : List (Nat × Nat)) (faces : List (Outline K)) : Prop where
  distinct : ∀ (e e' : Nat) (p p' : Nat × Nat), edges[e]? = some p → edges[e']? = some p' →
    joins p.1 p.2 p'.1 p'.2 = true → e = e'
  ends : ∀ p ∈ edges, p.1 ≠ p.2 ∧ p.1 < numVertices ∧ p.2 < numVertices
  joined : ∀ o ∈ faces, ∀ e ∈ o.edgeIds, e < edges.length
  used : ∀ e < edges.length, ∃ o ∈ faces, e ∈ o.edgeIds

structure Outlined (numVertices : Nat) (edges : List (Nat × Nat)) (o : Outline K) : Prop where
  corners : Corners numVertices o.vertIds
  sides : List.Forall₂ (Joined edges) o.edgeIds (ClosedPolygon.edges o.vertIds)

structure Sound (k : Skeleton K) : Prop where
  growing : Growing k.positions.length k.edges k.faces
  outlined : ∀ o ∈ k.faces, Outlined k.positions.length k.edges o

section Sides

variable {positions : List (Vector3 K)} {edges : List (Nat × Nat)} {faces : List (Outline K)} {o : Outline K}
  {numVertices e : Nat} {side side' : Nat × Nat}

theorem joins_iff {a b c d : Nat} : joins a b c d = true ↔ (a = c ∧ b = d) ∨ (a = d ∧ b = c) := by
  simp [joins]

theorem findEdge_assemble_eq_none {k : Skeleton K} {seen v0 v1 : Nat} (h : (assemble k seen).findEdge v0 v1 = none) :
    ∀ p ∈ k.edges, joins p.1 p.2 v0 v1 = false := by
  intro p hp
  obtain ⟨e, he⟩ := List.mem_iff_getElem?.mp hp
  rw [Hull.findEdge, Option.map_eq_none_iff, List.find?_eq_none] at h
  have hrecord := h _ (List.mem_of_getElem? (i := e) (by simp only [assemble, List.getElem?_mapIdx, he]; rfl))
  exact Bool.eq_false_of_not_eq_true hrecord

theorem findEdge_assemble_eq_some {k : Skeleton K} {seen v0 v1 : Nat}
    (h : (assemble k seen).findEdge v0 v1 = some e) : Joined k.edges e (v0, v1) := by
  obtain ⟨edge, hfind, rfl⟩ := Option.map_eq_some_iff.mp h
  have hjoins := List.find?_some hfind
  obtain ⟨i, hi⟩ := List.mem_iff_getElem?.mp (List.mem_of_find?_eq_some hfind)
  simp only [assemble, List.getElem?_mapIdx] at hi
  obtain ⟨p, hp, rfl⟩ := Option.map_eq_some_iff.mp hi
  exact ⟨p, hp, hjoins⟩

theorem Joined.lt (h : Joined edges e side) : e < edges.length := by
  obtain ⟨p, hp, -⟩ := h
  exact (List.getElem?_eq_some_iff.mp hp).1

theorem Joined.append (h : Joined edges e side) (more : List (Nat × Nat)) : Joined (edges ++ more) e side := by
  obtain ⟨p, hp, hjoins⟩ := h
  exact ⟨p, by rw [List.getElem?_append_left (List.getElem?_eq_some_iff.mp hp).1, hp], hjoins⟩

/-- One edge is that of two sides only if they are the same. -/
theorem Joined.unique (h : Joined edges e side) (h' : Joined edges e side') : side = side' ∨ side = side'.swap := by
  obtain ⟨p, hp, hjoins⟩ := h
  obtain ⟨p', hp', hjoins'⟩ := h'
  obtain rfl := Option.some.inj (hp.symm.trans hp')
  obtain ⟨a, b⟩ := side
  obtain ⟨c, d⟩ := side'
  rw [joins_iff] at hjoins hjoins'
  simp only [Prod.mk.injEq, Prod.swap_prod_mk]
  omega

/-- The loop over the corners, after the sides `done`. -/
structure Turned (numVertices : Nat) (edges : List (Nat × Nat)) (faces : List (Outline K)) (o : Outline K)
    (done : List (Nat × Nat)) : Prop where
  growing : Growing numVertices edges (faces ++ [o])
  vertIds : o.vertIds = done.map Prod.snd
  sides : List.Forall₂ (Joined edges) o.edgeIds done

theorem exists_side {ids : List Nat} {sides : List (Nat × Nat)} (h : List.Forall₂ (Joined edges) ids sides) (he : e ∈ ids) :
    ∃ side ∈ sides, Joined edges e side := by
  induction h with
  | nil => cases he
  | cons hjoined _ ih =>
    obtain rfl | he := List.mem_cons.mp he
    · exact ⟨_, List.mem_cons_self, hjoined⟩
    · obtain ⟨side, hside, hjoined⟩ := ih he
      exact ⟨side, List.mem_cons_of_mem _ hside, hjoined⟩

theorem exists_edge {ids : List Nat} {sides : List (Nat × Nat)} (h : List.Forall₂ (Joined edges) ids sides)
    (hside : side ∈ sides) : ∃ e ∈ ids, Joined edges e side := by
  induction h with
  | nil => cases hside
  | cons hjoined _ ih =>
    obtain rfl | hside := List.mem_cons.mp hside
    · exact ⟨_, List.mem_cons_self, hjoined⟩
    · obtain ⟨e, he, hjoined⟩ := ih hside
      exact ⟨e, List.mem_cons_of_mem _ he, hjoined⟩

/-- A side that is new to the face has an edge that is new to it. -/
theorem Turned.not_hasEdge {done : List (Nat × Nat)} (h : Turned numVertices edges faces o done)
    (hnew : ∀ d ∈ done, d ≠ side ∧ d ≠ side.swap) (he : Joined edges e side) : hasEdge e o = false := by
  rw [Bool.eq_false_iff, Ne, hasEdge, List.contains_iff_mem]
  intro hmem
  obtain ⟨d, hd, hjoined⟩ := exists_side h.sides hmem
  obtain hsame | hswap := hjoined.unique he
  · exact (hnew d hd).1 hsame
  · exact (hnew d hd).2 hswap

/-- Another side, whose edge is one of those there were or a new one at the end. -/
theorem Turned.push {done more : List (Nat × Nat)} (h : Turned numVertices edges faces o done)
    (hdistinct : ∀ (e e' : Nat) (p p' : Nat × Nat), (edges ++ more)[e]? = some p → (edges ++ more)[e']? = some p' →
      joins p.1 p.2 p'.1 p'.2 = true → e = e')
    (hends : ∀ p ∈ more, p.1 ≠ p.2 ∧ p.1 < numVertices ∧ p.2 < numVertices) (hjoined : Joined (edges ++ more) e side)
    (hmore : ∀ i < (edges ++ more).length, i < edges.length ∨ i = e) :
    Turned numVertices (edges ++ more) faces (o.push side.2 e) (done ++ [side]) where
  growing := by
    refine ⟨hdistinct, fun p hp => ?_, fun o' ho' i hi => ?_, fun i hi => ?_⟩
    · exact (List.mem_append.mp hp).elim (h.growing.ends p) (hends p)
    · rw [List.length_append]
      obtain ho' | ho' := List.mem_append.mp ho'
      · exact Nat.lt_add_right _ (h.growing.joined o' (List.mem_append_left _ ho') i hi)
      · obtain rfl := List.mem_singleton.mp ho'
        obtain hi | hi := List.mem_append.mp hi
        · exact Nat.lt_add_right _ (h.growing.joined o (by simp) i hi)
        · obtain rfl := List.mem_singleton.mp hi
          rw [← List.length_append]
          exact hjoined.lt
    · obtain hold | rfl := hmore i hi
      · obtain ⟨o', ho', hmem⟩ := h.growing.used i hold
        obtain ho' | ho' := List.mem_append.mp ho'
        · exact ⟨o', List.mem_append_left _ ho', hmem⟩
        · obtain rfl := List.mem_singleton.mp ho'
          exact ⟨o'.push side.2 e, by simp, List.mem_append_left _ hmem⟩
      · exact ⟨o.push side.2 i, by simp, by simp [Outline.push]⟩
  vertIds := by simp [Outline.push, h.vertIds]
  sides := List.rel_append (h.sides.imp fun _ _ hjoins => hjoins.append more) (.cons hjoined .nil)

theorem getElem?_concat_cases {p : Nat × Nat} (h : (edges ++ [side])[e]? = some p) :
    edges[e]? = some p ∨ (e = edges.length ∧ p = side) := by
  obtain hlt | hle := Nat.lt_or_ge e edges.length
  · rw [List.getElem?_append_left hlt] at h
    exact .inl h
  · rw [List.getElem?_append_right hle] at h
    obtain ⟨hlast, hsame⟩ := List.getElem?_eq_some_iff.mp h
    rw [List.length_singleton] at hlast
    simp only [List.getElem_singleton] at hsame
    exact .inr ⟨by omega, hsame.symm⟩

/-- A new edge is different from all others. -/
theorem distinct_concat
    (h : ∀ (e e' : Nat) (p p' : Nat × Nat), edges[e]? = some p → edges[e']? = some p' →
      joins p.1 p.2 p'.1 p'.2 = true → e = e')
    (hnone : ∀ p ∈ edges, joins p.1 p.2 side.1 side.2 = false) (e e' : Nat) (p p' : Nat × Nat)
    (hp : (edges ++ [side])[e]? = some p) (hp' : (edges ++ [side])[e']? = some p')
    (hjoins : joins p.1 p.2 p'.1 p'.2 = true) : e = e' := by
  obtain hold | ⟨he, rfl⟩ := getElem?_concat_cases hp
  · obtain hold' | ⟨-, rfl⟩ := getElem?_concat_cases hp'
    · exact h e e' p p' hold hold' hjoins
    · rw [hnone p (List.mem_of_getElem? hold)] at hjoins
      cases hjoins
  · obtain hold' | ⟨he', rfl⟩ := getElem?_concat_cases hp'
    · have hnot := hnone p' (List.mem_of_getElem? hold')
      rw [Bool.eq_false_iff, Ne, joins_iff] at hnot
      rw [joins_iff] at hjoins
      omega
    · omega

/-- One turn of the loop. -/
theorem addSide_turned {done : List (Nat × Nat)} (h : Turned positions.length edges faces o done)
    (hnew : ∀ d ∈ done, d ≠ side ∧ d ≠ side.swap) (hne : side.1 ≠ side.2) (hstart : side.1 < positions.length)
    (hend : side.2 < positions.length) : ∃ more e,
      (assemble ⟨positions, edges, faces ++ [o]⟩ faces.length).addSide faces.length side =
        assemble ⟨positions, edges ++ more, faces ++ [o.push side.2 e]⟩ faces.length ∧
      Turned positions.length (edges ++ more) faces (o.push side.2 e) (done ++ [side]) := by
  cases hfind : (assemble ⟨positions, edges, faces ++ [o]⟩ faces.length).findEdge side.1 side.2 with
  | some e =>
    have hjoined : Joined edges e side := findEdge_assemble_eq_some hfind
    refine ⟨[], e, ?_, ?_⟩
    · rw [List.append_nil, addSide_found hfind (h.not_hasEdge hnew hjoined)]
    · refine h.push ?_ (by simp) (hjoined.append []) ?_
      · rw [List.append_nil]
        exact h.growing.distinct
      · rw [List.append_nil]
        exact fun i hi => .inl hi
  | none =>
    have hnone := findEdge_assemble_eq_none hfind
    refine ⟨[side], edges.length, addSide_new hfind ?_ hne, ?_⟩
    · intro o' ho'
      rw [Bool.eq_false_iff, Ne, hasEdge, List.contains_iff_mem]
      exact fun hmem => Nat.lt_irrefl _ (h.growing.joined o' ho' _ hmem)
    · refine h.push (distinct_concat h.growing.distinct hnone) ?_ ⟨side, List.getElem?_concat_length, by simp [joins]⟩ ?_
      · intro p hp
        obtain rfl := List.mem_singleton.mp hp
        exact ⟨hne, hstart, hend⟩
      · intro i hi
        rw [List.length_append, List.length_singleton] at hi
        omega

/-- The loop over all corners. -/
theorem foldl_addSide_turned {done sides : List (Nat × Nat)} (h : Turned positions.length edges faces o done)
    (hpairwise : (done ++ sides).Pairwise fun d d' => d ≠ d' ∧ d ≠ d'.swap)
    (hsides : ∀ d ∈ sides, d.1 ≠ d.2 ∧ d.1 < positions.length ∧ d.2 < positions.length) : ∃ more o',
      sides.foldl (Hull.addSide faces.length) (assemble ⟨positions, edges, faces ++ [o]⟩ faces.length) =
        assemble ⟨positions, edges ++ more, faces ++ [o']⟩ faces.length ∧
      Turned positions.length (edges ++ more) faces o' (done ++ sides) ∧ o'.normal = o.normal := by
  induction sides generalizing edges o done with
  | nil => exact ⟨[], o, by simp, by simpa using h, rfl⟩
  | cons side sides ih =>
    obtain ⟨hside, hrest⟩ := List.forall_mem_cons.mp hsides
    have hnew : ∀ d ∈ done, d ≠ side ∧ d ≠ side.swap := fun d hd =>
      (List.pairwise_append.mp hpairwise).2.2 d hd side List.mem_cons_self
    obtain ⟨more, e, hturn, hturned⟩ := addSide_turned h hnew hside.1 hside.2.1 hside.2.2
    obtain ⟨more', o', hturns, hturned', hnormal⟩ :=
      ih hturned (by rw [List.append_assoc]; exact hpairwise) hrest
    refine ⟨more ++ more', o', ?_, ?_, hnormal⟩
    · rw [List.foldl_cons, hturn, hturns, List.append_assoc]
    · rw [List.append_assoc, List.append_assoc] at hturned'
      exact hturned'

/-- The ends of the edges are the corners. -/
theorem mem_ends_iff (h : Outlined numVertices edges o) (v : Nat) :
    v ∈ (o.edgeIds.flatMap fun e => (edges[e]?).elim [] fun p => [p.1, p.2]) ↔ v ∈ o.vertIds := by
  rw [List.mem_flatMap]
  constructor
  · rintro ⟨e, he, hmem⟩
    obtain ⟨side, hside, p, hp, hjoins⟩ := exists_side h.sides he
    obtain ⟨hstart, hend⟩ := ClosedPolygon.mem_of_mem_edges hside
    rw [hp] at hmem
    rw [joins_iff] at hjoins
    simp only [Option.elim_some, List.mem_cons, List.not_mem_nil, or_false] at hmem
    obtain ⟨h1, h2⟩ | ⟨h1, h2⟩ := hjoins <;> obtain rfl | rfl := hmem <;> simp only [h1, h2, hstart, hend]
  · intro hv
    rw [← ClosedPolygon.map_snd_edges o.vertIds] at hv
    obtain ⟨side, hside, rfl⟩ := List.mem_map.mp hv
    obtain ⟨e, he, p, hp, hjoins⟩ := exists_edge h.sides hside
    refine ⟨e, he, ?_⟩
    rw [joins_iff] at hjoins
    rw [hp]
    simp only [Option.elim_some, List.mem_cons, List.not_mem_nil, or_false]
    omega

theorem Outlined.append (h : Outlined numVertices edges o) (more : List (Nat × Nat)) :
    Outlined numVertices (edges ++ more) o where
  corners := h.corners
  sides := h.sides.imp fun _ _ hjoined => hjoined.append more

/-- `AddFace` -/
theorem addFace_assemble [FloatArithmetic K] (h : Sound ⟨positions, edges, faces⟩) (normal : Vector3 K)
    {verts : List Nat} (hverts : Corners positions.length verts) : ∃ more o,
      (assemble ⟨positions, edges, faces⟩ faces.length).addFace normal verts =
        assemble ⟨positions, edges ++ more, faces ++ [o]⟩ (faces ++ [o]).length ∧
      Sound ⟨positions, edges ++ more, faces ++ [o]⟩ ∧ o.vertIds = verts := by
  have hstart : Turned positions.length edges faces ⟨normal.normalize, [], []⟩ [] := by
    refine ⟨⟨h.growing.distinct, h.growing.ends, fun o ho e he => ?_, fun e he => ?_⟩, rfl, .nil⟩
    · obtain ho | ho := List.mem_append.mp ho
      · exact h.growing.joined o ho e he
      · obtain rfl := List.mem_singleton.mp ho
        cases he
    · obtain ⟨o, ho, hmem⟩ := h.growing.used e he
      exact ⟨o, List.mem_append_left _ ho, hmem⟩
  have hpairwise : ([] ++ ClosedPolygon.edges verts).Pairwise fun d d' => d ≠ d' ∧ d ≠ Prod.swap d' :=
    ClosedPolygon.pairwise_edges hverts.nodup hverts.three
  have hsides : ∀ d ∈ ClosedPolygon.edges verts, d.1 ≠ d.2 ∧ d.1 < positions.length ∧ d.2 < positions.length := by
    intro d hd
    obtain ⟨hfirst, hsecond⟩ := ClosedPolygon.mem_of_mem_edges hd
    have htwo : 2 ≤ verts.length := Nat.le_of_succ_le hverts.three
    exact ⟨ClosedPolygon.fst_ne_snd_of_mem_edges hverts.nodup htwo hd, hverts.valid _ hfirst, hverts.valid _ hsecond⟩
  obtain ⟨more, o, hturns, hturned, -⟩ := foldl_addSide_turned hstart hpairwise hsides
  have hvertIds : o.vertIds = verts := hturned.vertIds.trans (ClosedPolygon.map_snd_edges verts)
  have houtlined : Outlined positions.length (edges ++ more) o := ⟨hvertIds ▸ hverts, hvertIds ▸ hturned.sides⟩
  have hlength : (assemble ⟨positions, edges, faces⟩ faces.length).faces.length = faces.length := by simp [assemble]
  refine ⟨more, o, ?_, ⟨hturned.growing, fun o' ho' => ?_⟩, hvertIds⟩
  · rw [Hull.addFace, hlength]
    rw [assemble_newFace, hturns, finishFace_assemble (mem_ends_iff houtlined), List.length_append, List.length_singleton]
  · obtain ho' | ho' := List.mem_append.mp ho'
    · exact (h.outlined o' ho').append more
    · obtain rfl := List.mem_singleton.mp ho'
      exact houtlined

/-- `AddVertex` -/
theorem Sound.addVertex (h : Sound ⟨positions, edges, faces⟩) (v : Vector3 K) :
    (assemble ⟨positions, edges, faces⟩ faces.length).addVertex v =
        assemble ⟨positions ++ [v], edges, faces⟩ faces.length ∧
      Sound ⟨positions ++ [v], edges, faces⟩ := by
  constructor
  · exact assemble_addVertex (fun p hp => (h.growing.ends p hp).2) (fun o ho => (h.outlined o ho).corners.valid) v
  · have hmore : positions.length ≤ (positions ++ [v]).length := by simp
    refine ⟨⟨h.growing.distinct, fun p hp => ?_, h.growing.joined, h.growing.used⟩, fun o ho => ?_⟩
    · obtain ⟨hne, hstart, hend⟩ := h.growing.ends p hp
      exact ⟨hne, Nat.lt_of_lt_of_le hstart hmore, Nat.lt_of_lt_of_le hend hmore⟩
    · obtain ⟨hcorners, hsides⟩ := h.outlined o ho
      exact ⟨⟨hcorners.three, hcorners.nodup, fun v hv => Nat.lt_of_lt_of_le (hcorners.valid v hv) hmore⟩, hsides⟩

end Sides

/-! ## Assembled hulls -/

section Assembled

variable {k : Skeleton K} {e f : Nat}

theorem lists_relatives {α : Type} (related : α → Bool) (l : List α) :
    Lists (relatives related l l.length) fun i => ∃ a, l[i]? = some a ∧ related a = true where
  nodup := nodup_relatives related l l.length
  mem_iff := by
    intro i
    rw [mem_relatives, and_iff_right_of_imp]
    rintro ⟨a, ha, -⟩
    exact (List.getElem?_eq_some_iff.mp ha).1

/-- Others than oneself. -/
theorem Lists.others {ids : List Nat} {P : Nat → Prop} (h : Lists ids P) (i : Nat) :
    Lists (ids.filter (· != i)) fun j => j ≠ i ∧ P j where
  nodup := h.nodup.filter _
  mem_iff := by
    intro j
    rw [List.mem_filter, h.mem_iff, bne_iff_ne, and_comm]

theorem Lists.congr {ids : List Nat} {P Q : Nat → Prop} (h : Lists ids P) (hiff : ∀ i, P i ↔ Q i) : Lists ids Q where
  nodup := h.nodup
  mem_iff := fun i => (h.mem_iff i).trans (hiff i)

/-- The assembled edge of a skeleton. -/
def edgeOf (k : Skeleton K) (e : Nat) (p : Nat × Nat) : HullEdge := ⟨e, p.1, p.2,
  (relatives (meet p) k.edges k.edges.length).filter (· != e), relatives (hasEdge e) k.faces k.faces.length⟩

def faceOf (k : Skeleton K) (f : Nat) (o : Outline K) : HullFace K := ⟨f, o.normal, o.vertIds, o.edgeIds,
  (relatives (border o) k.faces k.faces.length).filter (· != f)⟩

theorem getElem?_assemble_edges {edge : HullEdge} : (assemble k k.faces.length).edges[e]? = some edge ↔
    ∃ p, k.edges[e]? = some p ∧ edgeOf k e p = edge := by
  simp only [assemble, List.getElem?_mapIdx, Option.map_eq_some_iff]
  rfl

theorem getElem?_assemble_faces {face : HullFace K} : (assemble k k.faces.length).faces[f]? = some face ↔
    ∃ o, k.faces[f]? = some o ∧ faceOf k f o = face := by
  simp only [assemble, List.getElem?_mapIdx, Option.map_eq_some_iff]
  refine exists_congr fun o => and_congr_right fun ho => ?_
  rw [if_pos (List.getElem?_eq_some_iff.mp ho).1]
  rfl

theorem ends_iff {v : Nat} {p : Nat × Nat} : ends v p = true ↔ (edgeOf k e p).HasEnd v := by
  simp [ends, HullEdge.HasEnd, edgeOf]

theorem meet_iff {e' : Nat} {p p' : Nat × Nat} : meet p p' = true ↔ (edgeOf k e p).Meets (edgeOf k e' p') := by
  simp [meet, ends, HullEdge.Meets, HullEdge.HasEnd, edgeOf]

theorem border_iff {f' : Nat} {o o' : Outline K} : border o o' = true ↔ (faceOf k f o).Borders (faceOf k f' o') := by
  simp only [border, HullFace.Borders, faceOf, List.any_eq_true, List.contains_iff_mem]
  constructor
  · rintro ⟨i, h, h'⟩
    exact ⟨i, h', h⟩
  · rintro ⟨i, h, h'⟩
    exact ⟨i, h', h⟩

/-- The edges with a property of their ends. -/
theorem exists_edge_iff {P : HullEdge → Prop} {Q : Nat × Nat → Prop} (h : ∀ p, Q p ↔ P (edgeOf k e p)) :
    (∃ p, k.edges[e]? = some p ∧ Q p) ↔ ∃ edge, (assemble k k.faces.length).edges[e]? = some edge ∧ P edge := by
  constructor
  · rintro ⟨p, hp, hq⟩
    exact ⟨edgeOf k e p, getElem?_assemble_edges.mpr ⟨p, hp, rfl⟩, (h p).mp hq⟩
  · rintro ⟨edge, hedge, hp⟩
    obtain ⟨p, hget, rfl⟩ := getElem?_assemble_edges.mp hedge
    exact ⟨p, hget, (h p).mpr hp⟩

theorem exists_face_iff {P : HullFace K → Prop} {Q : Outline K → Prop} (h : ∀ o, Q o ↔ P (faceOf k f o)) :
    (∃ o, k.faces[f]? = some o ∧ Q o) ↔ ∃ face, (assemble k k.faces.length).faces[f]? = some face ∧ P face := by
  constructor
  · rintro ⟨o, ho, hq⟩
    exact ⟨faceOf k f o, getElem?_assemble_faces.mpr ⟨o, ho, rfl⟩, (h o).mp hq⟩
  · rintro ⟨face, hface, hp⟩
    obtain ⟨o, hget, rfl⟩ := getElem?_assemble_faces.mp hface
    exact ⟨o, hget, (h o).mpr hp⟩

theorem adjoining_edges (k : Skeleton K) (e : Nat) (p : Nat × Nat) : Lists (edgeOf k e p).adjoiningEdgeIds fun e' =>
    e' ≠ e ∧ ∃ edge', (assemble k k.faces.length).edges[e']? = some edge' ∧ (edgeOf k e p).Meets edge' :=
  ((lists_relatives (meet p) k.edges).others e).congr fun _ => and_congr_right fun _ => exists_edge_iff fun _ => meet_iff

theorem adjoining_faces (k : Skeleton K) (f : Nat) (o : Outline K) : Lists (faceOf k f o).adjoiningFaceIds fun f' =>
    f' ≠ f ∧ ∃ face', (assemble k k.faces.length).faces[f']? = some face' ∧ (faceOf k f o).Borders face' :=
  ((lists_relatives (border o) k.faces).others f).congr fun _ => and_congr_right fun _ => exists_face_iff fun _ => border_iff

theorem HullEdge.Meets.symm {edge edge' : HullEdge} (h : edge.Meets edge') : edge'.Meets edge := by
  rw [HullEdge.Meets, HullEdge.HasEnd, HullEdge.HasEnd] at *
  omega

theorem HullFace.Borders.symm {face face' : HullFace K} (h : face.Borders face') : face'.Borders face := by
  obtain ⟨e, he, he'⟩ := h
  exact ⟨e, he', he⟩

/-- What belongs together by a symmetric relation is named on both sides. -/
theorem symmetric_of_lists {α : Type} {l : List α} {ids : α → List Nat} {R : α → α → Prop}
    (hsymm : ∀ a b, R a b → R b a)
    (h : ∀ (i : Nat) (a : α), l[i]? = some a → Lists (ids a) fun j => j ≠ i ∧ ∃ b, l[j]? = some b ∧ R a b)
    {i j : Nat} {a b : α} (ha : l[i]? = some a) (hb : l[j]? = some b) : j ∈ ids a ↔ i ∈ ids b := by
  have hone : ∀ {i j : Nat} {a b : α}, l[i]? = some a → l[j]? = some b → j ∈ ids a → i ∈ ids b := by
    intro i j a b ha hb hmem
    obtain ⟨hne, b', hb', hr⟩ := ((h i a ha).mem_iff j).mp hmem
    obtain rfl := Option.some.inj (hb.symm.trans hb')
    exact ((h j b hb).mem_iff i).mpr ⟨Ne.symm hne, a, ha, hsymm a b hr⟩
  exact ⟨hone ha hb, hone hb ha⟩

theorem vertexConsistent_assemble {v : Nat} {vertex : HullVertex K}
    (h : (assemble k k.faces.length).vertices[v]? = some vertex) :
    VertexConsistent (assemble k k.faces.length) v vertex := by
  simp only [assemble, List.getElem?_mapIdx, Option.map_eq_some_iff] at h
  obtain ⟨pos, -, rfl⟩ := h
  refine ⟨rfl, (lists_relatives (ends v) k.edges).congr fun e => ?_, (lists_relatives (hasVert v) k.faces).congr fun f => ?_⟩
  · exact exists_edge_iff fun _ => ends_iff
  · exact exists_face_iff fun o => by rw [hasVert, List.contains_iff_mem]; rfl

theorem edgeConsistent_assemble (hk : Sound k) {edge : HullEdge}
    (h : (assemble k k.faces.length).edges[e]? = some edge) : EdgeConsistent (assemble k k.faces.length) e edge := by
  obtain ⟨p, hp, rfl⟩ := getElem?_assemble_edges.mp h
  have hends := hk.growing.ends p (List.mem_of_getElem? hp)
  have hfaces : Lists (edgeOf k e p).enclosingFaces fun f =>
      ∃ face, (assemble k k.faces.length).faces[f]? = some face ∧ e ∈ face.edgeIds :=
    (lists_relatives (hasEdge e) k.faces).congr fun f =>
      exists_face_iff fun o => by rw [hasEdge, List.contains_iff_mem]; rfl
  have hlength : (assemble k k.faces.length).vertices.length = k.positions.length := by simp [assemble]
  refine ⟨rfl, by rw [hlength]; exact hends, fun e' edge' h' hjoins => ?_, adjoining_edges k e p,
    fun e' edge' h' => ?_, hfaces, ?_⟩
  · obtain ⟨p', hp', rfl⟩ := getElem?_assemble_edges.mp h'
    exact hk.growing.distinct e e' p p' hp hp' (joins_iff.mpr hjoins)
  · refine @symmetric_of_lists HullEdge _ HullEdge.adjoiningEdgeIds HullEdge.Meets (fun _ _ => HullEdge.Meets.symm)
      (fun i edge hedge => ?_) _ _ _ _ h h'
    obtain ⟨p, -, rfl⟩ := getElem?_assemble_edges.mp hedge
    exact adjoining_edges k i p
  · obtain ⟨o, ho, hmem⟩ := hk.growing.used e (List.getElem?_eq_some_iff.mp hp).1
    obtain ⟨f, hf⟩ := List.mem_iff_getElem?.mp ho
    have hlisted := (hfaces.mem_iff f).mpr ⟨faceOf k f o, getElem?_assemble_faces.mpr ⟨o, hf, rfl⟩, hmem⟩
    exact List.ne_nil_of_mem hlisted

/-- The edges of a face are as different as its sides. -/
theorem nodup_of_joined {edges : List (Nat × Nat)} {ids : List Nat} {sides : List (Nat × Nat)}
    (h : List.Forall₂ (Joined edges) ids sides) (hpairwise : sides.Pairwise fun d d' => d ≠ d' ∧ d ≠ Prod.swap d') :
    ids.Nodup := by
  induction h with
  | nil => exact List.nodup_nil
  | @cons e side ids sides hjoined hrest ih =>
    obtain ⟨hne, hpairwise⟩ := List.pairwise_cons.mp hpairwise
    refine List.nodup_cons.mpr ⟨fun hmem => ?_, ih hpairwise⟩
    obtain ⟨side', hside', hjoined'⟩ := exists_side hrest hmem
    obtain hsame | hswap := hjoined.unique hjoined'
    · exact (hne side' hside').1 hsame
    · exact (hne side' hside').2 hswap

theorem faceConsistent_assemble (hk : Sound k) {face : HullFace K}
    (h : (assemble k k.faces.length).faces[f]? = some face) : FaceConsistent (assemble k k.faces.length) f face := by
  obtain ⟨o, ho, rfl⟩ := getElem?_assemble_faces.mp h
  obtain ⟨hcorners, hsides⟩ := hk.outlined o (List.mem_of_getElem? ho)
  refine ⟨rfl, hsides.imp fun e side hjoined => ?_, ?_, adjoining_faces k f o, fun f' face' h' => ?_⟩
  · obtain ⟨p, hp, hjoins⟩ := hjoined
    exact ⟨edgeOf k e p, getElem?_assemble_edges.mpr ⟨p, hp, rfl⟩, joins_iff.mp hjoins⟩
  · exact nodup_of_joined hsides (ClosedPolygon.pairwise_edges hcorners.nodup hcorners.three)
  · refine @symmetric_of_lists (HullFace K) _ HullFace.adjoiningFaceIds HullFace.Borders (fun _ _ => HullFace.Borders.symm)
      (fun i face hface => ?_) _ _ _ _ h h'
    obtain ⟨o, -, rfl⟩ := getElem?_assemble_faces.mp hface
    exact adjoining_faces k i o

theorem consistent_assemble (hk : Sound k) : Consistent (assemble k k.faces.length) where
  vertices := fun _ _ => vertexConsistent_assemble
  edges := fun _ _ => edgeConsistent_assemble hk
  faces := fun _ _ => faceConsistent_assemble hk

end Assembled

/-! ## Runs -/

section Runs

theorem sound_empty : Sound (⟨[], [], []⟩ : Skeleton K) :=
  ⟨⟨by simp, by simp, by simp, by simp⟩, by simp⟩

theorem map_pos_assemble (k : Skeleton K) (seen : Nat) :
    (assemble k seen).vertices.map HullVertex.pos = k.positions := by
  refine List.ext_getElem? fun i => ?_
  simp only [assemble, List.getElem?_map, List.getElem?_mapIdx]
  cases k.positions[i]? <;> rfl

theorem map_vertIds_assemble (k : Skeleton K) (seen : Nat) :
    (assemble k seen).faces.map HullFace.vertIds = k.faces.map Outline.vertIds := by
  refine List.ext_getElem? fun i => ?_
  simp only [assemble, List.getElem?_map, List.getElem?_mapIdx]
  cases k.faces[i]? <;> rfl

variable [FloatArithmetic K]

/-- The positions the calls give. -/
def addedPositions : List (Call K) → List (Vector3 K)
  | [] => []
  | .addVertex v :: calls => v :: addedPositions calls
  | .addFace _ _ :: calls => addedPositions calls

/-- The corners the calls give. -/
def addedFaces : List (Call K) → List (List Nat)
  | [] => []
  | .addVertex _ :: calls => addedFaces calls
  | .addFace _ verts :: calls => verts :: addedFaces calls

theorem foldl_call_assemble {k : Skeleton K} (hk : Sound k) {calls : List (Call K)}
    (hcalls : WellFormed k.positions.length calls) : ∃ k' : Skeleton K,
      calls.foldl Hull.call (assemble k k.faces.length) = assemble k' k'.faces.length ∧ Sound k' ∧
      k'.positions = k.positions ++ addedPositions calls ∧
      k'.faces.map Outline.vertIds = k.faces.map Outline.vertIds ++ addedFaces calls := by
  induction calls generalizing k with
  | nil => exact ⟨k, rfl, hk, by simp [addedPositions], by simp [addedFaces]⟩
  | cons call calls ih =>
    obtain ⟨positions, edges, faces⟩ := k
    cases call with
    | addVertex v =>
      obtain ⟨hadd, hsound⟩ := hk.addVertex v
      have hrest : WellFormed (positions ++ [v]).length calls := by
        rw [List.length_append, List.length_singleton]
        exact hcalls
      obtain ⟨k', hrun, hk', hpositions, hfaces⟩ := ih hsound hrest
      refine ⟨k', ?_, hk', ?_, hfaces⟩
      · rw [List.foldl_cons, Hull.call, hadd, hrun]
      · rw [hpositions, addedPositions, List.append_assoc, List.singleton_append]
    | addFace normal verts =>
      obtain ⟨more, o, hadd, hsound, hverts⟩ := addFace_assemble hk normal hcalls.1
      obtain ⟨k', hrun, hk', hpositions, hfaces⟩ := ih hsound hcalls.2
      refine ⟨k', ?_, hk', hpositions, ?_⟩
      · rw [List.foldl_cons, Hull.call, hadd, hrun]
      · rw [hfaces, addedFaces, List.map_append, List.append_assoc, List.map_singleton, hverts, List.singleton_append]

/-- Any vertices and faces in any order: the hull holds them, and its lists are consistent. -/
theorem run_consistent (calls : List (Call K)) (hcalls : WellFormed 0 calls) :
    Consistent (run calls) ∧ (run calls).vertices.map HullVertex.pos = addedPositions calls ∧
      (run calls).faces.map HullFace.vertIds = addedFaces calls := by
  have hempty : (Hull.empty : Hull K) = assemble ⟨[], [], []⟩ 0 := rfl
  obtain ⟨k', hrun, hk', hpositions, hfaces⟩ := foldl_call_assemble sound_empty hcalls
  have hrun' : run calls = assemble k' k'.faces.length := by
    rw [run, hempty]
    exact hrun
  rw [hrun', map_pos_assemble, map_vertIds_assemble, hpositions, hfaces]
  exact ⟨consistent_assemble hk', rfl, rfl⟩

/-- The corners and faces of a tetrahedron. -/
def tetrahedron : List (Call ℚ) :=
  [.addVertex ⟨0, 0, 0⟩, .addVertex ⟨1, 0, 0⟩, .addVertex ⟨0, 1, 0⟩, .addVertex ⟨0, 0, 1⟩,
    .addFace ⟨0, 0, -1⟩ [0, 2, 1], .addFace ⟨0, -1, 0⟩ [0, 1, 3], .addFace ⟨-1, 0, 0⟩ [0, 3, 2],
    .addFace ⟨1, 1, 1⟩ [1, 2, 3]]

theorem run_consistent_tetrahedron : Consistent (run tetrahedron) := by
  refine (run_consistent tetrahedron ?_).1
  exact ⟨⟨by decide, by decide, by decide⟩, ⟨by decide, by decide, by decide⟩, ⟨by decide, by decide, by decide⟩,
    ⟨by decide, by decide, by decide⟩, trivial⟩

end Runs

/-! ## What the shapes see of a hull -/

section Shapes

def HullEdge.toShape (edge : HullEdge) : CollisionDetection.HullEdge := ⟨edge.vStart, edge.vEnd⟩

def Hull.toShape (h : Hull K) : CollisionDetection.Hull K where
  vertices := h.vertices.map HullVertex.pos
  edges := h.edges.map HullEdge.toShape

theorem toShape_addVertex (h : Hull K) (v : Vector3 K) : (h.addVertex v).toShape = h.toShape.addVertex v := by
  simp [Hull.toShape, Hull.addVertex, CollisionDetection.Hull.addVertex]

theorem isSome_findEdge_toShape (h : Hull K) (v0 v1 : Nat) :
    (h.toShape.findEdge v0 v1).isSome = (h.findEdge v0 v1).isSome := by
  rw [Hull.findEdge, Option.isSome_map, CollisionDetection.Hull.findEdge, List.findIdx?_isSome, Bool.eq_iff_iff,
    List.find?_isSome, List.any_eq_true]
  constructor
  · rintro ⟨edge', hedge, hjoins⟩
    obtain ⟨edge, hmem, rfl⟩ := List.mem_map.mp hedge
    exact ⟨edge, hmem, hjoins⟩
  · rintro ⟨edge, hmem, hjoins⟩
    exact ⟨edge.toShape, List.mem_map_of_mem hmem, hjoins⟩

theorem map_pos_pushEdge (e i : Nat) (l : List (HullVertex K)) :
    (l.modify i (.pushEdge e)).map HullVertex.pos = l.map HullVertex.pos :=
  @map_modify _ _ HullVertex.pos (.pushEdge e) (fun _ => rfl) l i

theorem map_toShape_pushFace (f i : Nat) (l : List HullEdge) :
    (l.modify i (.pushFace f)).map HullEdge.toShape = l.map HullEdge.toShape :=
  @map_modify _ _ HullEdge.toShape (.pushFace f) (fun _ => rfl) l i

theorem map_toShape_linkAll (related : HullEdge → Bool) (n : Nat) (l : List HullEdge) :
    (linkAll related HullEdge.pushAdjoining n l).map HullEdge.toShape = l.map HullEdge.toShape :=
  @map_linkAll _ _ HullEdge.toShape related HullEdge.pushAdjoining (fun _ _ => rfl) n l

theorem toShape_constructNewEdge (h : Hull K) (parentFace v0 v1 : Nat) :
    (h.constructNewEdge parentFace v0 v1).1.toShape = h.toShape.constructNewEdge v0 v1 := by
  have hsome := isSome_findEdge_toShape h v0 v1
  rw [CollisionDetection.Hull.constructNewEdge]
  cases hfind : h.findEdge v0 v1 with
  | some e =>
    rw [hfind] at hsome
    obtain ⟨e', he'⟩ := Option.isSome_iff_exists.mp hsome
    rw [he', constructNewEdge_of_some hfind h.faces]
    simp only [Hull.toShape, map_toShape_pushFace]
  | none =>
    have hnone : h.toShape.findEdge v0 v1 = none := by
      rw [hfind] at hsome
      exact Option.isSome_eq_false_iff.mp hsome |> Option.isNone_iff_eq_none.mp
    rw [hnone, constructNewEdge_of_none hfind h.faces]
    simp [Hull.toShape, map_toShape_pushFace, map_pos_pushEdge, map_toShape_linkAll, HullEdge.toShape]

theorem toShape_addSide (newFace : Nat) (h : Hull K) (side : Nat × Nat) :
    (h.addSide newFace side).toShape = h.toShape.constructNewEdge side.1 side.2 := by
  have hconstruct :=
    toShape_constructNewEdge { h with faces := h.faces.modify newFace (.pushVert side.2) } newFace side.1 side.2
  exact hconstruct

theorem toShape_foldl_addSide (newFace : Nat) (line : List Nat) (start : Nat) (h : Hull K) :
    ((ClosedPolygon.edgesFrom start line).foldl (Hull.addSide newFace) h).toShape =
      (line.foldl (fun (hull, p0) p1 => (CollisionDetection.Hull.constructNewEdge hull p0 p1, p1)) (h.toShape, start)).1 := by
  induction line generalizing start h with
  | nil => rfl
  | cons v line ih => rw [ClosedPolygon.edgesFrom, List.foldl_cons, List.foldl_cons, ih, toShape_addSide]

theorem toShape_finishFace (newFace : Nat) (h : Hull K) : (h.finishFace newFace).toShape = h.toShape := by
  have hpos : ∀ (names : List Nat) (has : HullVertex K → Bool),
      (names.foldl (addOnce has (.pushFace newFace)) h.vertices).map HullVertex.pos = h.vertices.map HullVertex.pos :=
    fun names has => @map_foldl_addOnce _ _ HullVertex.pos has (.pushFace newFace) (fun _ => rfl) names h.vertices
  simp only [Hull.finishFace, Hull.toShape, hpos]

/-- The vertices and edges of the hull are those the shapes work with. -/
theorem toShape_addFace [FloatArithmetic K] (h : Hull K) (normal : Vector3 K) (verts : List Nat) :
    (h.addFace normal verts).toShape = h.toShape.addFace verts := by
  rw [Hull.addFace, toShape_finishFace, ClosedPolygon.edges, CollisionDetection.Hull.addFace, List.getLastD_eq_getLast?]
  cases hlast : verts.getLast? with
  | none =>
    obtain rfl := List.getLast?_eq_none_iff.mp hlast
    rfl
  | some last => exact toShape_foldl_addSide _ verts last _

end Shapes

end Lumos.Physics.HullMesh
