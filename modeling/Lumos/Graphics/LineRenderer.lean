import Lumos.Library.FixedArray
import Lumos.Library.Loop
import Lumos.Maths.FloatArithmetic

/-!
# `LineRenderer`

Lines wait in a list until they are rendered. The list is walked while they are written into
the vertex buffer of the current batch; a batch that is full is presented, and the list is
cleared. Going beyond an array, or reading a line that is no longer there, is `none`.
-/
namespace Lumos.Graphics.LineRendering

open Maths Outcome

/-! ## Limits -/

def maxLines : Nat := 10000

def maxLineVertices : Nat := maxLines * 2

def maxLineIndices : Nat := maxLines * 6

/-- `MAX_BATCH_DRAW_CALLS` -/
def maxBatchDrawCalls : Nat := 100

/-- The vertices in `RENDERER_BUFFER_SIZE`, which counts four for each vertex of a line. -/
def bufferVertices : Nat := 4 * maxLineVertices

/-! ## The renderer -/

structure LineVertexData (K : Type) where
  vertex : Vector3 K
  color : Vector4 K

structure LineInfo (K : Type) where
  p1 : Vector3 K
  p2 : Vector3 K
  col : Vector4 K

/-- What one draw call is made with. -/
structure Batch (K : Type) where
  drawCallIndex : Nat
  vertices : List (LineVertexData K)
  indexCount : Nat

structure LineRenderer (K : Type) where
  batchDrawCallIndex : Nat
  lineIndexCount : Nat
  /-- What has been written since the buffer was mapped. -/
  buffer : List (LineVertexData K)
  lines : List (LineInfo K)
  /-- The batches of the frame. -/
  recorded : List (Batch K)

variable {K : Type}

/-- After `Init`. -/
def init : LineRenderer K := ⟨0, 0, [], [], []⟩

def lineVertices (info : LineInfo K) : List (LineVertexData K) := [⟨info.p1, info.col⟩, ⟨info.p2, info.col⟩]

/-- The vertices a batch draws. The index buffer counts up. -/
def Batch.drawn (batch : Batch K) : List (LineVertexData K) := batch.vertices.take batch.indexCount

namespace LineRenderer

variable (s : LineRenderer K)

/-- `Begin` -/
def beginFrame : LineRenderer K := { s with lineIndexCount := 0, lines := [] }

def submit (info : LineInfo K) : LineRenderer K := { s with lines := s.lines ++ [info] }

/-- What `Present` records. -/
def batch : Batch K := ⟨s.batchDrawCallIndex, s.buffer, s.lineIndexCount⟩

/-- A batch is recorded also when there is nothing in it. -/
def present : Option (LineRenderer K) :=
  if s.batchDrawCallIndex < maxBatchDrawCalls then
    some { s with
      recorded := s.recorded ++ [s.batch], lineIndexCount := 0, batchDrawCallIndex := s.batchDrawCallIndex + 1 }
  else none

/-- Mapping the vertex buffer of the current batch. -/
def mapBuffer : Option (LineRenderer K) :=
  if s.batchDrawCallIndex < maxBatchDrawCalls then some { s with buffer := [] } else none

def flushAndResetLines : Option (LineRenderer K) := do
  let s ← s.present
  { s with lines := [] }.mapBuffer

/-- The line is a reference into the list. It is read after a flush. -/
def submitInternal (info : Nat) : Option (LineRenderer K) := do
  let s ← if s.lineIndexCount ≥ maxLineIndices then s.flushAndResetLines else some s
  let line ← s.lines[info]?
  let buffer ← (lineVertices line).foldlM (FixedArray.push bufferVertices) s.buffer
  return { s with buffer, lineIndexCount := s.lineIndexCount + 2 }

/-- `End` -/
def endFrame : LineRenderer K := { s with batchDrawCallIndex := 0 }

/-- The loop ends where the list ended when it began. -/
def renderInternal : Option (LineRenderer K) := do
  let s ← { s with recorded := [] }.mapBuffer
  let s ← (List.range s.lines.length).foldlM submitInternal s
  let s ← s.present
  return s.endFrame

/-! ## A walk over the lines -/

variable {s}

/-- The state when so many lines have been written, and there was no flush. -/
def written (s : LineRenderer K) (count : Nat) : LineRenderer K :=
  { s with buffer := (s.lines.take count).flatMap lineVertices, lineIndexCount := 2 * count }

theorem length_flatMap_lineVertices (lines : List (LineInfo K)) :
    (lines.flatMap lineVertices).length = 2 * lines.length := by
  induction lines with
  | nil => rfl
  | cons info lines ih =>
    rw [List.flatMap_cons, List.length_append, ih, List.length_cons]
    simp only [lineVertices, List.length_cons, List.length_nil]
    omega

theorem submitInternal_written {i : Nat} (hline : i < s.lines.length) (hroom : 2 * i < maxLineIndices) :
    (s.written i).submitInternal i = some (s.written (i + 1)) := by
  have hroom' : ¬ (s.written i).lineIndexCount ≥ maxLineIndices := by
    simp only [written]
    omega
  have hread : (s.written i).lines[i]? = some s.lines[i] := List.getElem?_eq_getElem hline
  have hlength : (s.written i).buffer.length = 2 * i := by
    rw [written, length_flatMap_lineVertices, List.length_take_of_le (Nat.le_of_lt hline)]
  have hfits : (s.written i).buffer.length + (lineVertices s.lines[i]).length ≤ bufferVertices := by
    have hlimit : maxLineIndices + 2 ≤ bufferVertices := by decide
    have htwo : (lineVertices s.lines[i]).length = 2 := rfl
    omega
  have hbuffer : (s.written i).buffer ++ lineVertices s.lines[i] = (s.written (i + 1)).buffer := by
    simp only [written]
    rw [List.take_succ_eq_append_getElem hline, List.flatMap_append, List.flatMap_singleton]
  rw [submitInternal, if_neg hroom']
  simp only [Option.bind_eq_bind, Option.bind_some, hread]
  rw [FixedArray.foldlM_push _ _ _ (by omega), if_pos hfits, hbuffer]
  rfl

/-- The flush clears the list, and the line is gone. -/
theorem submitInternal_full {i : Nat} (hfull : maxLineIndices ≤ 2 * i) : (s.written i).submitInternal i = none := by
  have hfull' : (s.written i).lineIndexCount ≥ maxLineIndices := hfull
  rw [submitInternal, if_pos hfull', flushAndResetLines, present]
  split
  · simp only [Option.bind_eq_bind, Option.bind_some, mapBuffer]
    split <;> rfl
  · rfl

/-- Between two calls nothing is left to be drawn. -/
structure Idle (s : LineRenderer K) : Prop where
  lineIndexCount_eq : s.lineIndexCount = 0
  batchDrawCallIndex_eq : s.batchDrawCallIndex = 0

theorem idle_init : Idle (init : LineRenderer K) := ⟨rfl, rfl⟩

theorem Idle.beginFrame (h : s.Idle) : s.beginFrame.Idle := ⟨rfl, h.batchDrawCallIndex_eq⟩

theorem Idle.submit (h : s.Idle) (info : LineInfo K) : (s.submit info).Idle :=
  ⟨h.lineIndexCount_eq, h.batchDrawCallIndex_eq⟩

theorem foldl_submit (infos : List (LineInfo K)) : infos.foldl submit s = { s with lines := s.lines ++ infos } := by
  induction infos generalizing s with
  | nil => simp
  | cons info infos ih => simp [ih, submit]

/-- All lines go into the first batch, or the walk goes on behind the flush over a list that has
been cleared. -/
theorem Idle.renderInternal (h : s.Idle) :
    Yields s.renderInternal (2 * s.lines.length ≤ maxLineIndices) fun s' =>
      s'.Idle ∧ s'.recorded = [⟨0, s.lines.flatMap lineVertices, 2 * s.lines.length⟩] := by
  obtain ⟨hcount, hindex⟩ := h
  have hmap : mapBuffer { s with recorded := [] } = some (written { s with recorded := [] } 0) := by
    rw [mapBuffer, if_pos (by rw [hindex]; decide)]
    simp [written, hcount]
  have hstep : ∀ n, n ≤ s.lines.length → 2 * n ≤ maxLineIndices → ∀ i < n,
      (written { s with recorded := [] } i).submitInternal i = some (written { s with recorded := [] } (i + 1)) :=
    fun n hn hroom i hi => submitInternal_written (Nat.lt_of_lt_of_le hi hn) (by omega)
  rw [LineRenderer.renderInternal, hmap, Option.bind_eq_bind, Option.bind_some]
  by_cases hroom : 2 * s.lines.length ≤ maxLineIndices
  · have hwalk := Loop.foldlM_range (hstep s.lines.length (Nat.le_refl _) hroom)
    have hlines : (written { s with recorded := [] } 0).lines.length = s.lines.length := rfl
    have hpresent : (written { s with recorded := [] } s.lines.length).batchDrawCallIndex < maxBatchDrawCalls := by
      simp only [written, hindex]
      decide
    rw [hlines, hwalk, Option.bind_some, present, if_pos hpresent]
    refine yields_some hroom ⟨⟨rfl, rfl⟩, ?_⟩
    simp [endFrame, batch, written, hindex]
  · have heven : 2 * (maxLineIndices / 2) = maxLineIndices := by decide
    have hlt : maxLineIndices / 2 < s.lines.length := by omega
    have hwalk := Loop.foldlM_range_eq_none (hstep _ (Nat.le_of_lt hlt) (Nat.le_of_eq heven))
      (submitInternal_full (Nat.le_of_eq heven.symm)) hlt
    have hlines : (written { s with recorded := [] } 0).lines.length = s.lines.length := rfl
    rw [hlines, hwalk]
    exact yields_none hroom

end LineRenderer

end Lumos.Graphics.LineRendering
