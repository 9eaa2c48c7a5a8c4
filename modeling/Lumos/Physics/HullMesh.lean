import Lumos.Library.ClosedPolygon
import Lumos.Library.PairedRows
import Lumos.Maths.FloatArithmetic

/-!
# `Hull`

The vertices, edges and faces of a hull refer to each other in six kinds of lists, which are
extended with every face. What they hold after a call is what one would put together from the
edges and faces alone.
-/
namespace Lumos.Physics.HullMesh

open Maths FloatArithmetic
open Library.PairedRows

variable {K : Type}

/-! ## The class -/

structure HullVertex (K : Type) where
  idx : Nat
  pos : Vector3 K
  enclosingEdges : List Nat
  enclosingFaces : List Nat

structure HullEdge where
  idx : Nat
  vStart : Nat
  vEnd : Nat
  adjoiningEdgeIds : List Nat
  enclosingFaces : List Nat
  deriving DecidableEq

structure HullFace (K : Type) where
  idx : Nat
  normal : Vector3 K
  vertIds : List Nat
  edgeIds : List Nat
  adjoiningFaceIds : List Nat

structure Hull (K : Type) where
  vertices : List (HullVertex K)
  edges : List HullEdge
  faces : List (HullFace K)

def HullVertex.pushEdge (e : Nat) (v : HullVertex K) : HullVertex K :=
  { v with enclosingEdges := v.enclosingEdges ++ [e] }

def HullVertex.pushFace (f : Nat) (v : HullVertex K) : HullVertex K :=
  { v with enclosingFaces := v.enclosingFaces ++ [f] }

def HullEdge.pushAdjoining (e : Nat) (edge : HullEdge) : HullEdge :=
  { edge with adjoiningEdgeIds := edge.adjoiningEdgeIds ++ [e] }

def HullEdge.pushFace (f : Nat) (edge : HullEdge) : HullEdge :=
  { edge with enclosingFaces := edge.enclosingFaces ++ [f] }

def HullFace.pushVert (v : Nat) (face : HullFace K) : HullFace K := { face with vertIds := face.vertIds ++ [v] }

def HullFace.pushEdge (e : Nat) (face : HullFace K) : HullFace K := { face with edgeIds := face.edgeIds ++ [e] }

def HullFace.pushAdjoining (f : Nat) (face : HullFace K) : HullFace K :=
  { face with adjoiningFaceIds := face.adjoiningFaceIds ++ [f] }

/-- The same two vertices, in either order. -/
def joins (vStart vEnd v0 v1 : Nat) : Bool := (vStart == v0 && vEnd == v1) || (vStart == v1 && vEnd == v0)

namespace Hull

def empty : Hull K := ⟨[], [], []⟩

def addVertex (h : Hull K) (v : Vector3 K) : Hull K :=
  { h with vertices := h.vertices ++ [⟨h.vertices.length, v, [], []⟩] }

/-- `none` stands for -1. -/
def findEdge (h : Hull K) (v0 v1 : Nat) : Option Nat :=
  (h.edges.find? fun edge => joins edge.vStart edge.vEnd v0 v1).map HullEdge.idx

/-- Whether an edge has one of two vertices. -/
def touches (vertStart vertEnd : Nat) (edge : HullEdge) : Bool :=
  edge.vStart == vertStart || edge.vStart == vertEnd || edge.vEnd == vertStart || edge.vEnd == vertEnd

def constructNewEdge (h : Hull K) (parentFace vertStart vertEnd : Nat) : Hull K × Nat :=
  match h.findEdge vertStart vertEnd with
  | some outIdx => ({ h with edges := h.edges.modify outIdx (.pushFace parentFace) }, outIdx)
  | none =>
    let outIdx := h.edges.length
    let edges := linkAll (touches vertStart vertEnd) HullEdge.pushAdjoining outIdx
      (h.edges ++ [⟨outIdx, vertStart, vertEnd, [], []⟩])
    let vertices := (h.vertices.modify vertStart (.pushEdge outIdx)).modify vertEnd (.pushEdge outIdx)
    ({ h with vertices, edges := edges.modify outIdx (.pushFace parentFace) }, outIdx)

/-- One turn of the loop over the corners of the face, from the one before to the next. -/
def addSide (newFace : Nat) (h : Hull K) (side : Nat × Nat) : Hull K :=
  let h := { h with faces := h.faces.modify newFace (.pushVert side.2) }
  let (h, edge) := h.constructNewEdge newFace side.1 side.2
  { h with faces := h.faces.modify newFace (.pushEdge edge) }

/-- Whether a face has one of some edges. -/
def borders (edgeIds : List Nat) (cFace : HullFace K) : Bool := cFace.edgeIds.any edgeIds.contains

/-- The two loops that follow on the first one. -/
def finishFace (newFace : Nat) (h : Hull K) : Hull K :=
  let edgeIds := (h.faces[newFace]?).elim [] HullFace.edgeIds
  let faces := linkAll (borders edgeIds) HullFace.pushAdjoining newFace h.faces
  let ends := edgeIds.flatMap fun e => (h.edges[e]?).elim [] fun edge => [edge.vStart, edge.vEnd]
  let vertices := ends.foldl (addOnce (fun v : HullVertex K => v.enclosingFaces.contains newFace) (.pushFace newFace))
    h.vertices
  { h with faces, vertices }

def addFace [FloatArithmetic K] (h : Hull K) (normal : Vector3 K) (verts : List Nat) : Hull K :=
  let newFace := h.faces.length
  let h := { h with faces := h.faces ++ [⟨newFace, normal.normalize, [], [], []⟩] }
  ((ClosedPolygon.edges verts).foldl (addSide newFace) h).finishFace newFace

end Hull

/-! ## A hull from its edges and faces -/

/-- A face without what it shares with others. -/
structure Outline (K : Type) where
  normal : Vector3 K
  vertIds : List Nat
  edgeIds : List Nat

structure Skeleton (K : Type) where
  positions : List (Vector3 K)
  edges : List (Nat × Nat)
  faces : List (Outline K)

def ends (v : Nat) (edge : Nat × Nat) : Bool := edge.1 == v || edge.2 == v

def meet (edge edge' : Nat × Nat) : Bool := ends edge.1 edge' || ends edge.2 edge'

def hasVert (v : Nat) (o : Outline K) : Bool := o.vertIds.contains v

def hasEdge (e : Nat) (o : Outline K) : Bool := o.edgeIds.contains e

def border (o o' : Outline K) : Bool := o'.edgeIds.any o.edgeIds.contains

/-- The lists put together from scratch. The vertices and faces know of the first faces only,
as they do while another one is being added. -/
def assemble (k : Skeleton K) (seen : Nat) : Hull K where
  vertices := k.positions.mapIdx fun v pos => ⟨v, pos, relatives (ends v) k.edges k.edges.length,
    relatives (hasVert v) k.faces seen⟩
  edges := k.edges.mapIdx fun e edge => ⟨e, edge.1, edge.2,
    (relatives (meet edge) k.edges k.edges.length).filter (· != e),
    relatives (hasEdge e) k.faces k.faces.length⟩
  faces := k.faces.mapIdx fun f o => ⟨f, o.normal, o.vertIds, o.edgeIds,
    if f < seen then (relatives (border o) k.faces seen).filter (· != f) else []⟩

/-! ## Calls on an assembled hull -/

section Assembled

variable {positions : List (Vector3 K)} {edges : List (Nat × Nat)} {faces : List (Outline K)} {o : Outline K}

theorem meet_comm (edge edge' : Nat × Nat) : meet edge edge' = meet edge' edge := by
  rw [Bool.eq_iff_iff]
  simp only [meet, ends, Bool.or_eq_true, beq_iff_eq]
  omega

theorem meet_self (edge : Nat × Nat) : meet edge edge = true := by simp [meet, ends]

theorem border_comm (o o' : Outline K) : border o o' = border o' o := by
  rw [Bool.eq_iff_iff]
  simp only [border, List.any_eq_true, List.contains_iff_mem]
  exact ⟨fun ⟨e, h, h'⟩ => ⟨e, h', h⟩, fun ⟨e, h, h'⟩ => ⟨e, h', h⟩⟩

theorem foldl_pushAdjoining (ids : List Nat) (edge : HullEdge) :
    ids.foldl (fun edge i => HullEdge.pushAdjoining i edge) edge =
      { edge with adjoiningEdgeIds := edge.adjoiningEdgeIds ++ ids } := by
  induction ids generalizing edge with
  | nil => simp
  | cons i ids ih =>
    rw [List.foldl_cons, ih]
    simp [HullEdge.pushAdjoining]

theorem foldl_pushAdjoining_face (ids : List Nat) (face : HullFace K) :
    ids.foldl (fun face i => HullFace.pushAdjoining i face) face =
      { face with adjoiningFaceIds := face.adjoiningFaceIds ++ ids } := by
  induction ids generalizing face with
  | nil => simp
  | cons i ids ih =>
    rw [List.foldl_cons, ih]
    simp [HullFace.pushAdjoining]

theorem assemble_addVertex {seen : Nat} (hedges : ∀ edge ∈ edges, edge.1 < positions.length ∧ edge.2 < positions.length)
    (hfaces : ∀ o ∈ faces, ∀ v ∈ o.vertIds, v < positions.length) (v : Vector3 K) :
    (assemble ⟨positions, edges, faces⟩ seen).addVertex v = assemble ⟨positions ++ [v], edges, faces⟩ seen := by
  have hnone : relatives (ends positions.length) edges edges.length = [] := by
    refine relatives_eq_nil fun edge hedge => ?_
    obtain ⟨hstart, hend⟩ := hedges edge hedge
    simp only [ends, Bool.or_eq_false_iff, beq_eq_false_iff_ne]
    omega
  have hnone' : relatives (hasVert positions.length) faces seen = [] := by
    refine relatives_eq_nil fun o ho => ?_
    rw [Bool.eq_false_iff, Ne, hasVert, List.contains_iff_mem]
    exact fun hmem => Nat.lt_irrefl _ (hfaces o ho _ hmem)
  simp [Hull.addVertex, assemble, List.mapIdx_append, hnone, hnone']

/-- A face that has no corners yet. -/
theorem assemble_newFace (normal : Vector3 K) :
    { assemble ⟨positions, edges, faces⟩ faces.length with
      faces := (assemble ⟨positions, edges, faces⟩ faces.length).faces ++ [⟨faces.length, normal, [], [], []⟩] } =
      assemble ⟨positions, edges, faces ++ [⟨normal, [], []⟩]⟩ faces.length := by
  simp [assemble, List.mapIdx_append, relatives_append, relatives_concat, hasEdge]

/-- The face with one more side. -/
def Outline.push (o : Outline K) (v e : Nat) : Outline K :=
  { o with vertIds := o.vertIds ++ [v], edgeIds := o.edgeIds ++ [e] }

theorem hasEdge_push (o : Outline K) (v e i : Nat) : hasEdge i (o.push v e) = (hasEdge i o || i == e) := by
  rw [Bool.eq_iff_iff]
  simp [hasEdge, Outline.push]

theorem assemble_pushFace (v e : Nat) (edges' : List (Nat × Nat)) :
    ((assemble ⟨positions, edges, faces ++ [o]⟩ faces.length).faces.modify faces.length (.pushVert v)).modify
      faces.length (.pushEdge e) = (assemble ⟨positions, edges', faces ++ [o.push v e]⟩ faces.length).faces := by
  simp only [assemble, List.mapIdx_append, List.mapIdx_cons, List.mapIdx_nil]
  rw [modify_append_last _ _ _ (by simp), modify_append_last _ _ _ (by simp)]
  simp [relatives_append, HullFace.pushVert, HullFace.pushEdge, Outline.push]

/-- What a side does, once it is known what becomes of the vertices and edges. -/
theorem addSide_eq {h : Hull K} {newFace e : Nat} {side : Nat × Nat} {vertices : List (HullVertex K)}
    {edges : List HullEdge} (hconstruct : ∀ faces, Hull.constructNewEdge { h with faces } newFace side.1 side.2 =
      (⟨vertices, edges, faces⟩, e)) : h.addSide newFace side =
        ⟨vertices, edges, (h.faces.modify newFace (.pushVert side.2)).modify newFace (.pushEdge e)⟩ := by
  simp only [Hull.addSide, hconstruct]

theorem constructNewEdge_of_some {h : Hull K} {parentFace v0 v1 e : Nat} (hfind : h.findEdge v0 v1 = some e)
    (faces : List (HullFace K)) : Hull.constructNewEdge { h with faces } parentFace v0 v1 =
      (⟨h.vertices, h.edges.modify e (.pushFace parentFace), faces⟩, e) := by
  have hfind' : Hull.findEdge { h with faces } v0 v1 = some e := hfind
  rw [Hull.constructNewEdge, hfind']

theorem constructNewEdge_of_none {h : Hull K} {parentFace v0 v1 : Nat} (hfind : h.findEdge v0 v1 = none)
    (faces : List (HullFace K)) : Hull.constructNewEdge { h with faces } parentFace v0 v1 =
      (⟨(h.vertices.modify v0 (.pushEdge h.edges.length)).modify v1 (.pushEdge h.edges.length),
        (linkAll (Hull.touches v0 v1) HullEdge.pushAdjoining h.edges.length
          (h.edges ++ [⟨h.edges.length, v0, v1, [], []⟩])).modify h.edges.length (.pushFace parentFace), faces⟩,
        h.edges.length) := by
  have hfind' : Hull.findEdge { h with faces } v0 v1 = none := hfind
  rw [Hull.constructNewEdge, hfind']

/-- An edge that is there already. -/
theorem addSide_found {side : Nat × Nat} {e : Nat}
    (hfind : (assemble ⟨positions, edges, faces ++ [o]⟩ faces.length).findEdge side.1 side.2 = some e)
    (hnew : hasEdge e o = false) : (assemble ⟨positions, edges, faces ++ [o]⟩ faces.length).addSide faces.length side =
      assemble ⟨positions, edges, faces ++ [o.push side.2 e]⟩ faces.length := by
  have hedges : (assemble ⟨positions, edges, faces ++ [o]⟩ faces.length).edges.modify e (.pushFace faces.length) =
      (assemble ⟨positions, edges, faces ++ [o.push side.2 e]⟩ faces.length).edges := by
    refine List.ext_getElem? fun i => ?_
    simp only [assemble, List.getElem?_modify, List.getElem?_mapIdx, List.length_append, List.length_cons, List.length_nil,
      Nat.zero_add, relatives_concat, hasEdge_push]
    cases edges[i]? with
    | none => rfl
    | some edge =>
      by_cases hi : e = i
      · subst hi
        simp [hnew, HullEdge.pushFace]
      · simp [hi, Ne.symm hi]
  have hvertices : (assemble ⟨positions, edges, faces ++ [o]⟩ faces.length).vertices =
      (assemble ⟨positions, edges, faces ++ [o.push side.2 e]⟩ faces.length).vertices := by
    simp [assemble, relatives_append]
  rw [addSide_eq (constructNewEdge_of_some hfind), hedges, hvertices, assemble_pushFace side.2 e edges]

/-- The vertices when an edge is added at the end. -/
theorem assemble_pushEdge_vertices {side : Nat × Nat} (hne : side.1 ≠ side.2) (faces' : List (Outline K))
    (hsame : ∀ v, relatives (hasVert v) faces' faces.length = relatives (hasVert v) faces faces.length) :
    ((assemble ⟨positions, edges, faces ++ [o]⟩ faces.length).vertices.modify side.1 (.pushEdge edges.length)).modify
      side.2 (.pushEdge edges.length) = (assemble ⟨positions, edges ++ [side], faces'⟩ faces.length).vertices := by
  refine List.ext_getElem? fun i => ?_
  simp only [assemble, List.getElem?_modify, List.getElem?_mapIdx, List.length_append, List.length_cons, List.length_nil,
    Nat.zero_add, relatives_concat, hsame, relatives_append (Nat.le_refl _)]
  cases positions[i]? with
  | none => rfl
  | some pos =>
    by_cases hstart : side.1 = i
    · have hend : side.2 ≠ i := fun h => hne (hstart.trans h.symm)
      simp [hstart, hend, ends, HullVertex.pushEdge]
    · by_cases hend : side.2 = i <;> simp [hstart, hend, ends, HullVertex.pushEdge]

theorem touches_eq (side : Nat × Nat) (edge : HullEdge) :
    Hull.touches side.1 side.2 edge = meet (edge.vStart, edge.vEnd) side := by
  rw [Bool.eq_iff_iff]
  simp only [Hull.touches, meet, ends, Bool.or_eq_true, beq_iff_eq]
  omega

theorem filter_relatives_self {α : Type} (related : α → Bool) (l : List α) :
    (relatives related l l.length).filter (· != l.length) = relatives related l l.length := by
  refine List.filter_eq_self.mpr fun i hi => ?_
  have hlt := (mem_relatives.mp hi).1
  rw [bne_iff_ne]
  omega

/-- The edges when another one is linked with them and belongs to the last face. -/
theorem assemble_pushEdge_edges (side : Nat × Nat) (hfaces : ∀ o' ∈ faces ++ [o], hasEdge edges.length o' = false) :
    (linkAll (Hull.touches side.1 side.2) HullEdge.pushAdjoining edges.length
      ((assemble ⟨positions, edges, faces ++ [o]⟩ faces.length).edges ++
        [⟨edges.length, side.1, side.2, [], []⟩])).modify edges.length (.pushFace faces.length) =
      (assemble ⟨positions, edges ++ [side], faces ++ [o.push side.2 edges.length]⟩ faces.length).edges := by
  have hnew := hfaces o (by simp)
  have hbefore : relatives (hasEdge edges.length) faces faces.length = [] :=
    relatives_eq_nil fun o' ho' => hfaces o' (by simp [ho'])
  have hlength : (assemble ⟨positions, edges, faces ++ [o]⟩ faces.length).edges.length = edges.length := by
    simp [assemble]
  have hlink := @linkAll_append HullEdge (Hull.touches side.1 side.2) HullEdge.pushAdjoining
    (assemble ⟨positions, edges, faces ++ [o]⟩ faces.length).edges ⟨edges.length, side.1, side.2, [], []⟩
  rw [hlength] at hlink
  have hrelatives : relatives (Hull.touches side.1 side.2)
      (assemble ⟨positions, edges, faces ++ [o]⟩ faces.length).edges edges.length =
        relatives (meet side) edges edges.length :=
    relatives_mapIdx (fun _ edge => (touches_eq side _).trans (meet_comm edge side)) edges edges.length
  have hfilter := filter_relatives_self (meet side) edges
  rw [hlink, modify_append_last _ _ _ (by rw [List.length_map, hlength]), foldl_pushAdjoining, hrelatives]
  simp only [assemble, List.mapIdx_append, List.mapIdx_cons, List.mapIdx_nil]
  congr 1
  · refine List.ext_getElem? fun i => ?_
    simp only [List.getElem?_map, List.getElem?_mapIdx, List.length_append, List.length_cons, List.length_nil,
      Nat.zero_add, relatives_concat, hasEdge_push]
    cases hi : edges[i]? with
    | none => rfl
    | some edge =>
      obtain ⟨hlt, -⟩ := List.getElem?_eq_some_iff.mp hi
      have hne : edges.length ≠ i := by omega
      have hne' : (i == edges.length) = false := beq_eq_false_iff_ne.mpr hne.symm
      cases hmeet : meet edge side <;> simp [touches_eq, hmeet, HullEdge.pushAdjoining, hne, hne']
  · simp [relatives_concat, hasEdge_push, hbefore, hnew, meet_self, hfilter, HullEdge.pushFace]

/-- A new edge. -/
theorem addSide_new {side : Nat × Nat}
    (hfind : (assemble ⟨positions, edges, faces ++ [o]⟩ faces.length).findEdge side.1 side.2 = none)
    (hfaces : ∀ o' ∈ faces ++ [o], hasEdge edges.length o' = false) (hne : side.1 ≠ side.2) :
    (assemble ⟨positions, edges, faces ++ [o]⟩ faces.length).addSide faces.length side =
      assemble ⟨positions, edges ++ [side], faces ++ [o.push side.2 edges.length]⟩ faces.length := by
  have hlength : (assemble ⟨positions, edges, faces ++ [o]⟩ faces.length).edges.length = edges.length := by
    simp [assemble]
  have hvertices := @assemble_pushEdge_vertices K positions edges faces o side hne
    (faces ++ [o.push side.2 edges.length]) fun v => relatives_append (Nat.le_refl _) _
  rw [addSide_eq (constructNewEdge_of_none hfind), hlength, hvertices, assemble_pushEdge_edges side hfaces,
    assemble_pushFace side.2 edges.length (edges ++ [side])]

/-- The vertices when those of the last face take it down. -/
theorem assemble_finishFace_vertices {names : List Nat} (hnames : ∀ v, v ∈ names ↔ v ∈ o.vertIds) :
    names.foldl (addOnce (fun v : HullVertex K => v.enclosingFaces.contains faces.length) (.pushFace faces.length))
      (assemble ⟨positions, edges, faces ++ [o]⟩ faces.length).vertices =
        (assemble ⟨positions, edges, faces ++ [o]⟩ (faces.length + 1)).vertices := by
  rw [foldl_addOnce (fun v => by simp [HullVertex.pushFace])]
  refine List.ext_getElem? fun i => ?_
  have hbefore : faces.length ∉ relatives (hasVert i) faces faces.length := fun h =>
    Nat.lt_irrefl _ (mem_relatives.mp h).1
  simp only [assemble, List.getElem?_mapIdx, relatives_concat, relatives_append (Nat.le_refl _)]
  cases positions[i]? with
  | none => rfl
  | some pos =>
    by_cases hi : i ∈ o.vertIds <;> simp [hnames, hi, hasVert, hbefore, HullVertex.pushFace]

/-- The faces when the last one has been compared with those before it. -/
theorem assemble_finishFace_faces : linkAll (Hull.borders o.edgeIds) HullFace.pushAdjoining faces.length
    (assemble ⟨positions, edges, faces ++ [o]⟩ faces.length).faces =
      (assemble ⟨positions, edges, faces ++ [o]⟩ (faces.length + 1)).faces := by
  have hfilter := filter_relatives_self (border o) faces
  simp only [assemble, List.mapIdx_append, List.mapIdx_cons, List.mapIdx_nil, Nat.zero_add, relatives_concat,
    relatives_append (Nat.le_refl _), Nat.lt_irrefl, if_false]
  generalize hbefore : faces.mapIdx _ = before
  have hlength : before.length = faces.length := by rw [← hbefore, List.length_mapIdx]
  have hlink := @linkAll_append _ (Hull.borders o.edgeIds) HullFace.pushAdjoining before
    ⟨faces.length, o.normal, o.vertIds, o.edgeIds, []⟩
  have hrelatives : relatives (Hull.borders o.edgeIds) before faces.length =
      relatives (border o) faces faces.length := by
    rw [← hbefore]
    exact @relatives_mapIdx _ (border o) _ (Hull.borders o.edgeIds) _ (fun _ _ => rfl) faces faces.length
  rw [hlength, foldl_pushAdjoining_face, hrelatives] at hlink
  rw [hlink]
  congr 1
  · refine List.ext_getElem? fun i => ?_
    rw [← hbefore]
    simp only [List.getElem?_map, List.getElem?_mapIdx]
    cases hi : faces[i]? with
    | none => rfl
    | some o' =>
      obtain ⟨hlt, -⟩ := List.getElem?_eq_some_iff.mp hi
      have hne : faces.length ≠ i := by omega
      have hlt' : i < faces.length + 1 := by omega
      have hborder : ∀ cFace : HullFace K, cFace.edgeIds = o'.edgeIds → Hull.borders o.edgeIds cFace = border o' o := by
        intro cFace hsame
        rw [border_comm, Hull.borders, hsame, border]
      cases hrelated : border o' o <;> simp [hborder, hrelated, hlt, hlt', hne, HullFace.pushAdjoining]
  · cases border o o <;> simp [hfilter]

/-- The end of `AddFace`. -/
theorem finishFace_assemble (hends : ∀ v, v ∈ (o.edgeIds.flatMap fun e => (edges[e]?).elim [] fun p => [p.1, p.2]) ↔
    v ∈ o.vertIds) : (assemble ⟨positions, edges, faces ++ [o]⟩ faces.length).finishFace faces.length =
      assemble ⟨positions, edges, faces ++ [o]⟩ (faces.length + 1) := by
  have hedgeIds : ((assemble ⟨positions, edges, faces ++ [o]⟩ faces.length).faces[faces.length]?).elim []
      HullFace.edgeIds = o.edgeIds := by
    simp [assemble]
  have hnames : (o.edgeIds.flatMap fun e => ((assemble ⟨positions, edges, faces ++ [o]⟩ faces.length).edges[e]?).elim []
      fun edge => [edge.vStart, edge.vEnd]) = o.edgeIds.flatMap fun e => (edges[e]?).elim [] fun p => [p.1, p.2] := by
    congr 1
    funext e
    simp only [assemble, List.getElem?_mapIdx]
    cases edges[e]? <;> rfl
  rw [Hull.finishFace, hedgeIds, hnames]
  rw [assemble_finishFace_faces, assemble_finishFace_vertices hends]
  rfl

end Assembled

end Lumos.Physics.HullMesh
