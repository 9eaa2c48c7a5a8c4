import Lumos.Graphics.Frames
import Lumos.Graphics.LineRenderer

/-!
# `DebugRenderer`

The triangles and lines of a frame are handed on to a `Renderer2D` and a `LineRenderer`, which
draw them when the frame is rendered. `Begin` of the `Renderer2D`, with which its part of the
rendering begins, clears the triangles that have been submitted.
-/
namespace Lumos.Graphics.DebugRendering

open Maths Outcome
open LineRendering (LineRenderer LineInfo lineVertices)
open Batching (Renderer2D RenderCommand2D TriangleInfo Item triangleVertices bufferVertices)

variable {K T : Type}

/-! ## The renderer -/

structure DebugRenderer (K T : Type) where
  lineRenderer : LineRenderer K
  renderer2D : Renderer2D K T

/-- What is submitted. -/
inductive Primitive (K : Type) where
  | triangle (info : TriangleInfo K)
  | line (info : LineInfo K)

def triangles (primitives : List (Primitive K)) : List (TriangleInfo K) :=
  primitives.filterMap fun
    | .triangle info => some info
    | .line _ => none

def lines (primitives : List (Primitive K)) : List (LineInfo K) :=
  primitives.filterMap fun
    | .triangle _ => none
    | .line info => some info

/-- `BeginSimple` -/
def beginSimple (s : Renderer2D K T) : Renderer2D K T := { s with textures := [], triangles := [] }

/-- After `Init`. -/
def init : DebugRenderer K T := ⟨LineRendering.init, Batching.init⟩

namespace DebugRenderer

variable (s : DebugRenderer K T)

def reset : DebugRenderer K T := ⟨s.lineRenderer.beginFrame, beginSimple s.renderer2D⟩

def beginScene (commands : List (RenderCommand2D K T)) : DebugRenderer K T :=
  { s with renderer2D := s.renderer2D.beginScene commands }

/-- `GenDrawTriangle`, or `GenDrawHairLine` and `GenDrawThickLine`. -/
def draw : Primitive K → DebugRenderer K T
  | .triangle info => { s with renderer2D := s.renderer2D.submitTriangle info }
  | .line info => { s with lineRenderer := s.lineRenderer.submit info }

section Frames

variable [DecidableEq T] [FloatArithmetic K]

/-- What `Render` does with the `Renderer2D`. -/
def renderTriangles (r : Renderer2D K T) : Option (Renderer2D K T) := do
  let r ← r.beginFrame
  let r ← r.submitTriangles
  let r ← r.present
  return r.endFrame

def render : Option (DebugRenderer K T) := do
  let renderer2D ← renderTriangles s.renderer2D
  let lineRenderer ← s.lineRenderer.renderInternal
  return { lineRenderer, renderer2D }

/-- A frame of the `RenderGraph`. -/
def frame (commands : List (RenderCommand2D K T)) (primitives : List (Primitive K)) : Option (DebugRenderer K T) :=
  (primitives.foldl draw (s.reset.beginScene commands)).render

end Frames

end DebugRenderer

/-! ## Calls -/

inductive Call (K T : Type) where
  | reset
  | beginScene (commands : List (RenderCommand2D K T))
  | draw (primitive : Primitive K)
  | render

section Calls

variable [DecidableEq T] [FloatArithmetic K]

def DebugRenderer.call (s : DebugRenderer K T) : Call K T → Option (DebugRenderer K T)
  | .reset => some s.reset
  | .beginScene commands => some (s.beginScene commands)
  | .draw primitive => some (s.draw primitive)
  | .render => s.render

def run (calls : List (Call K T)) : Option (DebugRenderer K T) := calls.foldlM DebugRenderer.call init

end Calls

/-! ## What is promised -/

/-- The vertices a batch draws when the index buffer counts up, as it does for triangles. -/
def drawn (batch : Batching.Batch K T) : List (Batching.VertexData K) := batch.vertices.take batch.indexCount

section Promise

variable [FloatArithmetic K]

/-- Each triangle is in the batches once, in the order in which they were submitted. -/
def HoldsTriangles (r : Renderer2D K T) (infos : List (TriangleInfo K)) : Prop :=
  r.recorded.flatMap drawn = infos.flatMap triangleVertices

def HoldsLines (r : LineRenderer K) (infos : List (LineInfo K)) : Prop :=
  r.recorded.flatMap LineRendering.Batch.drawn = infos.flatMap lineVertices

variable [DecidableEq T]

def Draws (s : DebugRenderer K T) (commands : List (RenderCommand2D K T)) (primitives : List (Primitive K)) : Prop :=
  ∃ s', s.frame commands primitives = some s' ∧ HoldsTriangles s'.renderer2D (triangles primitives) ∧
    HoldsLines s'.lineRenderer (lines primitives)

end Promise

/-! ## Submissions -/

theorem foldl_draw (primitives : List (Primitive K)) (s : DebugRenderer K T) :
    primitives.foldl DebugRenderer.draw s =
      ⟨(lines primitives).foldl LineRenderer.submit s.lineRenderer,
        (triangles primitives).foldl Renderer2D.submitTriangle s.renderer2D⟩ := by
  induction primitives generalizing s with
  | nil => rfl
  | cons primitive primitives ih =>
    rw [List.foldl_cons, ih]
    cases primitive <;> rfl

structure Idle (s : DebugRenderer K T) : Prop where
  lineRenderer : s.lineRenderer.Idle
  renderer2D : s.renderer2D.Idle

section Idle

theorem idle_init : Idle (init : DebugRenderer K T) := ⟨LineRenderer.idle_init, Renderer2D.idle_init⟩

variable {r : Renderer2D K T} {s : DebugRenderer K T}

/-- Neither of the two lists is looked at. -/
theorem idle_with (h : r.Idle) (textures : List T) (infos : List (TriangleInfo K)) :
    Renderer2D.Idle { r with textures, triangles := infos } where
  indexCount_eq := h.indexCount_eq
  batchDrawCallIndex_eq := h.batchDrawCallIndex_eq
  follows := h.follows

theorem Idle.reset (h : Idle s) : Idle s.reset := ⟨h.lineRenderer.beginFrame, idle_with h.renderer2D [] []⟩

theorem Idle.beginScene (h : Idle s) (commands : List (RenderCommand2D K T)) : Idle (s.beginScene commands) :=
  ⟨h.lineRenderer, h.renderer2D.beginScene commands⟩

theorem Idle.draw (h : Idle s) (primitive : Primitive K) : Idle (s.draw primitive) := by
  cases primitive with
  | triangle info => exact ⟨h.lineRenderer, idle_with h.renderer2D _ _⟩
  | line info => exact ⟨h.lineRenderer.submit info, h.renderer2D⟩

theorem Idle.draws (h : Idle s) (primitives : List (Primitive K)) :
    Idle (primitives.foldl DebugRenderer.draw s) := by
  induction primitives generalizing s with
  | nil => exact h
  | cons primitive primitives ih => exact ih (h.draw primitive)

end Idle

/-! ## Triangles -/

section Triangles

variable [DecidableEq T] [FloatArithmetic K] {r : Renderer2D K T}

/-- Nothing is recorded, whatever has been submitted. -/
theorem renderTriangles_yields (h : r.Idle) :
    Yields (DebugRenderer.renderTriangles r) True fun r' => r'.Idle ∧ r'.recorded = [] := by
  obtain ⟨r₀, hbegin, htriangles, hr₀⟩ := h.beginFrame
  have hyields := hr₀.foldlM_present h.follows rfl []
  rw [DebugRenderer.renderTriangles, hbegin, Option.bind_eq_bind, Option.bind_some, Renderer2D.submitTriangles_eq,
    htriangles]
  apply hyields.mono
  · rw [iff_true, GreedyCut.cut, GreedyCut.cutFrom_nil]
    constructor
    · exact (by decide : 0 + 1 ≤ Batching.limits.maxBatchDrawCalls)
    · intro run hrun
      rw [List.mem_singleton.mp hrun]
      exact Nat.zero_le _
  · intro r' hdrawn
    have hrecorded := hdrawn.recorded_eq
    exact ⟨hdrawn.idle, List.map_eq_nil_iff.mp hrecorded⟩

omit [DecidableEq T] in
theorem flatMap_triangleVertices_eq_nil {infos : List (TriangleInfo K)} (h : infos.flatMap triangleVertices = []) :
    infos = [] := by
  cases infos with
  | nil => rfl
  | cons info infos => cases h

/-- The triangles of a `Renderer2D` by itself, which are submitted once it has begun. -/
def items (infos : List (TriangleInfo K)) : List (Item K T) := infos.map Item.triangle

omit [DecidableEq T] [FloatArithmetic K] in
theorem vertexCount_items (infos : List (TriangleInfo K)) :
    Batching.vertexCount (items infos : List (Item K T)) = 3 * infos.length := by
  rw [Batching.vertexCount_of_forall (k := 3), items, List.length_map]
  intro item hitem
  obtain ⟨info, -, rfl⟩ := List.mem_map.mp hitem
  rfl

omit [DecidableEq T] [FloatArithmetic K] in
theorem indices_items (infos : List (TriangleInfo K)) :
    Batching.indices (items infos : List (Item K T)) = 3 * infos.length := by
  rw [Batching.indices_of_forall (k := 3), items, List.length_map]
  intro item hitem
  obtain ⟨info, -, rfl⟩ := List.mem_map.mp hitem
  rfl

theorem vertices_items (infos : List (TriangleInfo K)) :
    Batching.vertices (items infos : List (Item K T)) = infos.flatMap triangleVertices := by
  rw [Batching.vertices, items, List.flatMap_map]
  rfl

omit [FloatArithmetic K] in
theorem packed_items {infos : List (TriangleInfo K)} (h : 3 * infos.length ≤ Batching.limits.indiciesSize) :
    GreedyCut.Packed Batching.Fits (items infos : List (Item K T)) := by
  have hnone : (items infos : List (Item K T)).filterMap Item.texture = [] := by
    rw [items, List.filterMap_map, List.filterMap_eq_nil_iff]
    intro info _
    rfl
  apply Batching.packed_of_forall (k := 3)
  · intro item hitem
    obtain ⟨info, -, rfl⟩ := List.mem_map.mp hitem
    rfl
  · rw [items, List.length_map]
    exact h
  · rw [Batching.length_table, hnone]
    exact Nat.zero_le _

omit [FloatArithmetic K] in
/-- Three vertices are written for three indices, but the buffer has no room for as many vertices
as there are indices: a batch goes beyond it before it is flushed. -/
theorem room_items_iff (infos : List (TriangleInfo K)) :
    Renderer2D.Room 0 (GreedyCut.cut Batching.Fits (items infos : List (Item K T))) ↔
      3 * infos.length ≤ bufferVertices := by
  have hlimit : bufferVertices + 3 ≤ Batching.limits.indiciesSize := by decide
  constructor
  · intro hroom
    by_contra hmany
    have hlength : (infos.take (bufferVertices / 3 + 1)).length = bufferVertices / 3 + 1 :=
      List.length_take_of_le (by omega)
    have hpacked : GreedyCut.Packed Batching.Fits ([] ++ items (infos.take (bufferVertices / 3 + 1)) : List (Item K T)) :=
      packed_items (by omega)
    have hsplit : (items infos : List (Item K T)) =
        items (infos.take (bufferVertices / 3 + 1)) ++ items (infos.drop (bufferVertices / 3 + 1)) := by
      rw [items, items, items, ← List.map_append, List.take_append_drop]
    rw [hsplit, GreedyCut.cut, GreedyCut.cutFrom_packed hpacked] at hroom
    have hfits := (Renderer2D.room_cutFrom hroom).2
    rw [List.nil_append, vertexCount_items] at hfits
    omega
  · intro hroom
    rw [GreedyCut.cut_of_packed (packed_items (by omega))]
    refine ⟨(by decide : 0 + 1 ≤ Batching.limits.maxBatchDrawCalls), ?_⟩
    intro run hrun
    rw [List.mem_singleton.mp hrun, vertexCount_items]
    exact hroom

/-- What fits into the buffer is in one batch. -/
theorem holdsTriangles_of_drawn {start : Batching.Bindings T} {infos : List (TriangleInfo K)}
    (hroom : 3 * infos.length ≤ bufferVertices) (h : Renderer2D.Drawn start (items infos) r) :
    HoldsTriangles r infos := by
  have hlimit : bufferVertices ≤ Batching.limits.indiciesSize := by decide
  have hrecorded := h.recorded_eq
  rw [Batching.batches, GreedyCut.cut_of_packed (packed_items (by omega))] at hrecorded
  rw [HoldsTriangles]
  cases infos with
  | nil =>
    rw [List.map_eq_nil_iff.mp hrecorded]
    rfl
  | cons info infos =>
    have hone : r.recorded.map Batching.Batch.unbound = [Batching.batchOf 0 (items (info :: infos))] := hrecorded
    obtain ⟨batch, hbatch, hunbound⟩ := List.map_eq_singleton_iff.mp hone
    have hdrawn : drawn batch = drawn batch.unbound := rfl
    rw [hbatch, List.flatMap_singleton, hdrawn, hunbound, drawn, Batching.batchOf, vertices_items, indices_items]
    apply List.take_of_length_le
    rw [← @vertices_items K T _ _ (info :: infos), Batching.length_vertices, vertexCount_items]

/-- The triangles of a `Renderer2D` that is used by itself. -/
theorem drawTriangles_holds_iff (h : r.Idle) (infos : List (TriangleInfo K)) :
    (∃ r', r.drawTriangles infos = some r' ∧ HoldsTriangles r' infos) ↔ 3 * infos.length ≤ bufferVertices := by
  have hyields := h.drawTriangles infos
  rw [← @room_items_iff K T _ infos]
  constructor
  · rintro ⟨r', hr', -⟩
    exact (hyields.post_of_eq hr').1
  · intro hroom
    obtain ⟨r', hr', hdrawn⟩ := hyields.result hroom
    exact ⟨r', hr', holdsTriangles_of_drawn ((room_items_iff infos).mp hroom) hdrawn⟩

end Triangles

/-! ## Frames -/

section Frames

variable [DecidableEq T] [FloatArithmetic K] {s : DebugRenderer K T}

theorem Idle.render (h : Idle s) :
    Yields s.render (2 * s.lineRenderer.lines.length ≤ LineRendering.maxLineIndices) fun s' =>
      Idle s' ∧ s'.renderer2D.recorded = [] ∧ s'.lineRenderer.recorded =
        [⟨0, s.lineRenderer.lines.flatMap lineVertices, 2 * s.lineRenderer.lines.length⟩] := by
  rw [DebugRenderer.render]
  apply (renderTriangles_yields h.renderer2D).bind
  · intro r' _ hr'
    apply h.lineRenderer.renderInternal.bind
    · intro l' hlines hl'
      exact yields_some hlines ⟨⟨hl'.1, hr'.1⟩, hr'.2, hl'.2⟩
    · exact id
  · exact fun _ => trivial

theorem Idle.call (h : Idle s) {s' : DebugRenderer K T} (call : Call K T) (hcall : s.call call = some s') : Idle s' := by
  cases call with
  | reset =>
    cases hcall
    exact h.reset
  | beginScene commands =>
    cases hcall
    exact h.beginScene commands
  | draw primitive =>
    cases hcall
    exact h.draw primitive
  | render => exact (h.render.post_of_eq hcall).2.1

theorem idle_of_run {calls : List (Call K T)} (hrun : run calls = some s) : Idle s :=
  Loop.foldlM_invariant Idle calls (fun call _ _ _ hs hcall => hs.call call hcall) idle_init hrun

omit [FloatArithmetic K] in
theorem holdsLines_of_recorded {l : LineRenderer K} {infos : List (LineInfo K)}
    (h : l.recorded = [⟨0, infos.flatMap lineVertices, 2 * infos.length⟩]) : HoldsLines l infos := by
  rw [HoldsLines, h, List.flatMap_singleton, LineRendering.Batch.drawn]
  apply List.take_of_length_le
  rw [LineRenderer.length_flatMap_lineVertices]

/-- A frame holds what has been submitted as long as there are no triangles and the lines fit into
one batch. -/
theorem Idle.frame_draws_iff (h : Idle s) (commands : List (RenderCommand2D K T)) (primitives : List (Primitive K)) :
    Draws s commands primitives ↔ triangles primitives = [] ∧
      2 * (lines primitives).length ≤ LineRendering.maxLineIndices := by
  have hidle := (h.reset.beginScene commands).draws primitives
  have hlines : (primitives.foldl DebugRenderer.draw (s.reset.beginScene commands)).lineRenderer.lines =
      lines primitives := by
    rw [foldl_draw, LineRenderer.foldl_submit]
    rfl
  have hyields := hidle.render
  rw [hlines] at hyields
  constructor
  · rintro ⟨s', hframe, htriangles, -⟩
    obtain ⟨hroom, -, hrecorded, -⟩ := hyields.post_of_eq hframe
    rw [HoldsTriangles, hrecorded] at htriangles
    exact ⟨flatMap_triangleVertices_eq_nil htriangles.symm, hroom⟩
  · rintro ⟨hnone, hroom⟩
    obtain ⟨s', hframe, -, hrecorded, hlines'⟩ := hyields.result hroom
    refine ⟨s', hframe, ?_, holdsLines_of_recorded hlines'⟩
    rw [HoldsTriangles, hrecorded, hnone]
    rfl

/-- After any calls: a frame draws each triangle and line once and in their order exactly when there
is no triangle and the lines fit into one batch. A `Renderer2D` by itself does so as long as its
triangles fit into one vertex buffer. -/
theorem draws_iff {calls : List (Call K T)} (hrun : run calls = some s) (commands : List (RenderCommand2D K T))
    (primitives : List (Primitive K)) :
    (Draws s commands primitives ↔ triangles primitives = [] ∧ (lines primitives).length ≤ 30000) ∧
      ∀ infos, (∃ r, s.renderer2D.drawTriangles infos = some r ∧ HoldsTriangles r infos) ↔ infos.length ≤ 13333 := by
  have hidle := idle_of_run hrun
  have hlines : LineRendering.maxLineIndices = 60000 := by decide
  have htriangles : bufferVertices = 40000 := by decide
  constructor
  · have hcount : 2 * (lines primitives).length ≤ 60000 ↔ (lines primitives).length ≤ 30000 := by omega
    rw [hidle.frame_draws_iff commands primitives, hlines, hcount]
  · intro infos
    rw [drawTriangles_holds_iff hidle.renderer2D, htriangles]
    omega

end Frames

/-! ## Two frames -/

def plainTriangle : Primitive ℚ := .triangle ⟨⟨0, 0, 0⟩, ⟨1, 0, 0⟩, ⟨0, 1, 0⟩, ⟨1, 1, 1, 1⟩⟩

def plainLine : Primitive ℚ := .line ⟨⟨0, 0, 0⟩, ⟨1, 0, 0⟩, ⟨1, 1, 1, 1⟩⟩

theorem draws_iff_line :
    Draws (init : DebugRenderer ℚ Nat) [] [plainLine] ↔ triangles [plainLine] = [] ∧ (lines [plainLine]).length ≤ 30000 :=
  (draws_iff (rfl : run ([] : List (Call ℚ Nat)) = some init) [] [plainLine]).1

/-- A single triangle is not drawn, nor are the lines of a frame that has one more of them than fit
into a batch. -/
theorem not_draws : ¬ Draws (init : DebugRenderer ℚ Nat) [] [plainTriangle] ∧
    ¬ Draws (init : DebugRenderer ℚ Nat) [] (List.replicate 30001 plainLine) := by
  have hlimit : LineRendering.maxLineIndices = 60000 := by decide
  rw [idle_init.frame_draws_iff, idle_init.frame_draws_iff]
  constructor
  · rintro ⟨hnone, -⟩
    cases hnone
  · rintro ⟨-, hroom⟩
    have hlines : lines (List.replicate 30001 plainLine) = List.replicate 30001 ⟨⟨0, 0, 0⟩, ⟨1, 0, 0⟩, ⟨1, 1, 1, 1⟩⟩ := by
      rw [lines, List.filterMap_replicate_of_some]
      rfl
    rw [hlines, List.length_replicate] at hroom
    omega

end Lumos.Graphics.DebugRendering
