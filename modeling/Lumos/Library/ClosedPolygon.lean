import Mathlib.Data.List.Basic
import Mathlib.Data.Sym.Sym2

/-!
# Cutting a closed polygon

A polygon is the list of its vertices, each joined to the one before it and the first one to
the last one. It is cut along a line by going round its edges. Polygons form a closed surface
when each edge is one of exactly two of them.
-/
namespace Lumos.ClosedPolygon

variable {α : Type}

/-! ## Edges -/

/-- The edges of an open line from its start. -/
def edgesFrom (start : α) : List α → List (α × α)
  | [] => []
  | vertex :: rest => (start, vertex) :: edgesFrom vertex rest

def edges (polygon : List α) : List (α × α) :=
  match polygon.getLast? with
  | none => []
  | some last => edgesFrom last polygon

section Edges

theorem map_snd_edgesFrom (start : α) (line : List α) : (edgesFrom start line).map Prod.snd = line := by
  induction line generalizing start with
  | nil => rfl
  | cons vertex rest ih => exact congrArg (vertex :: ·) (ih vertex)

/-- Each vertex is the end of one edge. -/
theorem map_snd_edges (polygon : List α) : (edges polygon).map Prod.snd = polygon := by
  unfold edges
  cases hlast : polygon.getLast? with
  | none => exact (List.getLast?_eq_none_iff.mp hlast).symm
  | some last => exact map_snd_edgesFrom last polygon

theorem edgesFrom_eq_zip (start : α) (line : List α) : edgesFrom start line = (start :: line).zip line := by
  induction line generalizing start with
  | nil => rfl
  | cons vertex rest ih => exact congrArg ((start, vertex) :: ·) (ih vertex)

/-- Each edge goes from the vertex before its end. -/
theorem getElem?_edges {polygon : List α} {i : Nat} {edge : α × α} (h : (edges polygon)[i]? = some edge) :
    polygon[if i = 0 then polygon.length - 1 else i - 1]? = some edge.1 ∧ polygon[i]? = some edge.2 := by
  unfold edges at h
  cases hlast : polygon.getLast? with
  | none =>
    rw [hlast] at h
    cases h
  | some last =>
    simp only [hlast] at h
    rw [edgesFrom_eq_zip] at h
    obtain ⟨hstart, hend⟩ := List.getElem?_zip_eq_some.mp h
    refine ⟨?_, hend⟩
    cases i with
    | zero =>
      rw [if_pos rfl, ← List.getLast?_eq_getElem?, hlast]
      exact hstart
    | succ i => exact hstart

section Simple

variable {polygon : List α}

/-- Of two vertices at different places only one can be the other. -/
theorem index_unique (hnodup : polygon.Nodup) {i j : Nat} {a : α} (hi : polygon[i]? = some a)
    (hj : polygon[j]? = some a) : i = j := by
  obtain ⟨hlt, -⟩ := List.getElem?_eq_some_iff.mp hi
  exact (List.getElem?_inj hlt hnodup).mp (hi.trans hj.symm)

theorem fst_ne_snd_of_mem_edges (hnodup : polygon.Nodup) (htwo : 2 ≤ polygon.length) {edge : α × α}
    (h : edge ∈ edges polygon) : edge.1 ≠ edge.2 := by
  obtain ⟨i, hi⟩ := List.mem_iff_getElem?.mp h
  obtain ⟨hstart, hend⟩ := getElem?_edges hi
  intro heq
  rw [heq] at hstart
  have hsame := index_unique hnodup hstart hend
  split at hsame <;> omega

/-- With three vertices no edge is passed twice, in whichever direction. -/
theorem pairwise_edges (hnodup : polygon.Nodup) (hthree : 3 ≤ polygon.length) :
    (edges polygon).Pairwise fun edge edge' => edge ≠ edge' ∧ edge ≠ edge'.swap := by
  refine List.pairwise_iff_getElem.mpr fun i j hi hj hlt => ?_
  obtain ⟨hstart, hend⟩ := getElem?_edges (List.getElem?_eq_getElem hi)
  obtain ⟨hstart', hend'⟩ := getElem?_edges (List.getElem?_eq_getElem hj)
  constructor
  · intro heq
    rw [heq] at hend
    exact absurd (index_unique hnodup hend hend') (by omega)
  · intro heq
    rw [heq] at hstart hend
    have hfirst := index_unique hnodup hstart hend'
    have hsecond := index_unique hnodup hend hstart'
    obtain ⟨hlast, -⟩ := List.getElem?_eq_some_iff.mp hend'
    split at hfirst <;> split at hsecond <;> omega

end Simple

theorem fst_mem_edgesFrom {start : α} {line : List α} {edge : α × α} (h : edge ∈ edgesFrom start line) :
    edge.1 = start ∨ edge.1 ∈ line := by
  induction line generalizing start with
  | nil => cases h
  | cons vertex rest ih =>
    obtain rfl | h := List.mem_cons.mp h
    · exact .inl rfl
    · exact .inr (List.mem_cons.mpr (ih h))

/-- The ends of an edge are vertices. -/
theorem mem_of_mem_edges {polygon : List α} {edge : α × α} (h : edge ∈ edges polygon) :
    edge.1 ∈ polygon ∧ edge.2 ∈ polygon := by
  constructor
  · unfold edges at h
    cases hlast : polygon.getLast? with
    | none =>
      rw [hlast] at h
      cases h
    | some last =>
      rw [hlast] at h
      obtain heq | hmem := fst_mem_edgesFrom h
      · rw [heq]
        exact List.mem_of_getLast? hlast
      · exact hmem
  · have hmem := List.mem_map_of_mem (f := Prod.snd) h
    rwa [map_snd_edges] at hmem

theorem exists_edge {polygon : List α} {vertex : α} (h : vertex ∈ polygon) :
    ∃ start, (start, vertex) ∈ edges polygon := by
  rw [← map_snd_edges polygon] at h
  obtain ⟨⟨start, _⟩, hedge, rfl⟩ := List.mem_map.mp h
  exact ⟨start, hedge⟩

variable {inside : α → Bool}

theorem same_of_edgesFrom {start : α} {line : List α}
    (h : ∀ edge ∈ edgesFrom start line, inside edge.1 = inside edge.2) :
    ∀ vertex ∈ line, inside vertex = inside start := by
  induction line generalizing start with
  | nil => exact fun vertex hvertex => absurd hvertex List.not_mem_nil
  | cons next rest ih =>
    obtain ⟨hnext, hrest⟩ := List.forall_mem_cons.mp h
    intro vertex hvertex
    obtain rfl | hvertex := List.mem_cons.mp hvertex
    · exact hnext.symm
    · exact (ih hrest vertex hvertex).trans hnext.symm

/-- A polygon none of whose edges crosses is on one side. -/
theorem one_side_of_edges {polygon : List α} (h : ∀ edge ∈ edges polygon, inside edge.1 = inside edge.2) :
    (∀ vertex ∈ polygon, inside vertex = true) ∨ ∀ vertex ∈ polygon, inside vertex = false := by
  unfold edges at h
  cases hlast : polygon.getLast? with
  | none =>
    rw [List.getLast?_eq_none_iff.mp hlast]
    exact .inl fun vertex hvertex => absurd hvertex List.not_mem_nil
  | some last =>
    rw [hlast] at h
    have hsame := same_of_edgesFrom h
    cases hside : inside last with
    | false => exact .inr fun vertex hvertex => (hsame vertex hvertex).trans hside
    | true => exact .inl fun vertex hvertex => (hsame vertex hvertex).trans hside

end Edges

/-! ## Cuts -/

/-- One side of a line, and where the line meets the edge between a vertex that is kept and one
that is dropped. -/
structure Cut (α : Type) where
  inside : α → Bool
  meet : α → α → α

namespace Cut

variable (cut : Cut α)

/-- What becomes of the end of an edge. -/
def points (start endPoint : α) : List α :=
  match cut.inside start, cut.inside endPoint with
  | true, true => [endPoint]
  | true, false => [cut.meet start endPoint]
  | false, true => [cut.meet endPoint start, endPoint]
  | false, false => []

def clip (polygon : List α) : List α := (edges polygon).flatMap fun edge => cut.points edge.1 edge.2

/-- An edge with one end on either side. -/
def crosses (edge : α × α) : Bool := cut.inside edge.1 != cut.inside edge.2

variable {cut} {polygon : List α}

theorem clip_nil : cut.clip [] = [] := rfl

theorem mem_clip_of_inside {vertex : α} (h : vertex ∈ polygon) (hin : cut.inside vertex = true) :
    vertex ∈ cut.clip polygon := by
  obtain ⟨start, hedge⟩ := exists_edge h
  refine List.mem_flatMap.mpr ⟨_, hedge, ?_⟩
  unfold points
  rw [hin]
  cases cut.inside start <;> simp

/-- What holds of the vertices that are kept and of the points on the line holds of the rest. -/
theorem forall_clip {P : α → Prop} (hkept : ∀ vertex ∈ polygon, cut.inside vertex = true → P vertex)
    (hmeet : ∀ kept ∈ polygon, ∀ dropped ∈ polygon, ((kept, dropped) ∈ edges polygon ∨ (dropped, kept) ∈ edges polygon) →
      cut.inside kept = true → cut.inside dropped = false → P (cut.meet kept dropped)) :
    ∀ vertex ∈ cut.clip polygon, P vertex := by
  intro vertex hvertex
  obtain ⟨⟨start, endPoint⟩, hedge, hpoint⟩ := List.mem_flatMap.mp hvertex
  obtain ⟨hstart, hend⟩ := mem_of_mem_edges hedge
  unfold points at hpoint
  cases hs : cut.inside start <;> cases he : cut.inside endPoint <;> simp only [hs, he] at hpoint
  · cases hpoint
  · obtain rfl | hpoint := List.mem_cons.mp hpoint
    · exact hmeet endPoint hend start hstart (.inr hedge) he hs
    · rw [List.mem_singleton.mp hpoint]
      exact hkept endPoint hend he
  · rw [List.mem_singleton.mp hpoint]
    exact hmeet start hstart endPoint hend (.inl hedge) hs he
  · rw [List.mem_singleton.mp hpoint]
    exact hkept endPoint hend he

/-- A cut leaves a vertex for each one inside and one for each crossing. -/
theorem length_clip (polygon : List α) :
    (cut.clip polygon).length = polygon.countP cut.inside + (edges polygon).countP cut.crosses := by
  have hends : polygon.countP cut.inside = (edges polygon).countP fun edge => cut.inside edge.2 := by
    rw [← map_snd_edges polygon, List.countP_map, map_snd_edges]
    rfl
  rw [hends]
  unfold clip
  induction edges polygon with
  | nil => rfl
  | cons edge rest ih =>
    rw [List.flatMap_cons, List.length_append, ih, List.countP_cons, List.countP_cons]
    unfold points crosses
    cases cut.inside edge.1 <;> cases cut.inside edge.2 <;> simp <;> omega

/-- A polygon within is left as it is. -/
theorem clip_of_inside (h : ∀ vertex ∈ polygon, cut.inside vertex = true) : cut.clip polygon = polygon := by
  have hpoints : ∀ edge ∈ edges polygon, cut.points edge.1 edge.2 = [edge.2] := by
    intro edge hedge
    obtain ⟨hstart, hend⟩ := mem_of_mem_edges hedge
    rw [points, h _ hstart, h _ hend]
  rw [clip, List.flatMap_congr hpoints, ← List.map_eq_flatMap, map_snd_edges]

/-- Of a polygon outside nothing is left. -/
theorem clip_of_outside (h : ∀ vertex ∈ polygon, cut.inside vertex = false) : cut.clip polygon = [] := by
  refine List.flatMap_eq_nil_iff.mpr fun edge hedge => ?_
  obtain ⟨hstart, hend⟩ := mem_of_mem_edges hedge
  rw [points, h _ hstart, h _ hend]

/-- A polygon that is not on one side is cut. -/
theorem exists_crosses (h : ¬ ((∀ vertex ∈ polygon, cut.inside vertex = true) ∨
    ∀ vertex ∈ polygon, cut.inside vertex = false)) : ∃ edge ∈ edges polygon, cut.crosses edge = true := by
  by_contra hnone
  refine h (one_side_of_edges fun edge hedge => ?_)
  by_contra hdiffers
  exact hnone ⟨edge, hedge, bne_iff_ne.mpr hdiffers⟩

end Cut

/-! ## Closed surfaces -/

section Surfaces

variable [DecidableEq α]

/-- The edges of a polygon in no direction, without those from a vertex to itself. -/
def sides (polygon : List α) : List (Sym2 α) :=
  ((edges polygon).filter fun edge => edge.1 ≠ edge.2).map fun edge => s(edge.1, edge.2)

def Closed (faces : List (List α)) : Prop :=
  ∀ face ∈ faces, ∀ side ∈ sides face, faces.countP (fun other => decide (side ∈ sides other)) = 2

instance (faces : List (List α)) : Decidable (Closed faces) :=
  inferInstanceAs (Decidable (∀ face ∈ faces, ∀ side ∈ sides face, _ = 2))

variable {faces : List (List α)} {polygon : List α} {side : Sym2 α}

theorem exists_edge_of_mem_sides (h : side ∈ sides polygon) :
    ∃ start ∈ polygon, ∃ endPoint ∈ polygon, side = s(start, endPoint) := by
  obtain ⟨edge, hedge, rfl⟩ := List.mem_map.mp h
  obtain ⟨hstart, hend⟩ := mem_of_mem_edges (List.mem_of_mem_filter hedge)
  exact ⟨edge.1, hstart, edge.2, hend, rfl⟩

/-- Where polygons are removed together with all that share an edge with them, what is left is
closed. -/
theorem Closed.map_removed (h : Closed faces) {remove : List α → List α}
    (hremove : ∀ face ∈ faces, remove face = face ∨ remove face = [])
    (hshared : ∀ face ∈ faces, ∀ other ∈ faces, ∀ side ∈ sides face, side ∈ sides other →
      remove face = face → remove other = other) : Closed (faces.map remove) := by
  intro face' hface' side hside
  obtain ⟨face, hface, rfl⟩ := List.mem_map.mp hface'
  have hkept : remove face = face := by
    rcases hremove face hface with heq | heq
    · exact heq
    · rw [heq] at hside
      cases hside
  rw [hkept] at hside
  rw [List.countP_map, ← h face hface side hside]
  apply List.countP_congr
  intro other hother
  simp only [Function.comp_apply, decide_eq_true_eq]
  constructor
  · intro hmem
    rcases hremove other hother with heq | heq
    · rwa [heq] at hmem
    · rw [heq] at hmem
      cases hmem
  · intro hmem
    rwa [hshared face hface other hother side hside hmem hkept]

end Surfaces

end Lumos.ClosedPolygon
