import Lumos.Library.FixedArray
import Lumos.Maths.FloatArithmetic

/-!
# `Renderer2D`

Sprites and triangles are written into the vertex buffer of the current batch. A batch that
is full is recorded, with the descriptor set of its textures, and executed at the end of the
frame. Going beyond an array or a buffer is `none`.
-/
namespace Lumos.Graphics.Batching

open Maths FloatArithmetic

/-! ## Limits -/

/-- `RENDERER2D_VERTEX_SIZE`: eleven floats. -/
def vertexSize : Nat := 44

structure Render2DLimits where
  maxQuads : Nat
  bufferSize : Nat
  indiciesSize : Nat
  maxTextures : Nat
  maxBatchDrawCalls : Nat

namespace Render2DLimits

def initial : Render2DLimits where
  maxQuads := 10000
  bufferSize := 10000 * vertexSize * 4
  indiciesSize := 10000 * 6
  maxTextures := 16
  maxBatchDrawCalls := 100

def setMaxQuads (limits : Render2DLimits) (quads : Nat) : Render2DLimits :=
  { limits with maxQuads := quads, bufferSize := quads * vertexSize * 4, indiciesSize := quads * 6 }

end Render2DLimits

/-- What the constructor makes of the limits. -/
def limits : Render2DLimits := { Render2DLimits.initial.setMaxQuads 10000 with maxQuads := 16 }

/-- The vertices a buffer of the limits' size holds. -/
def bufferVertices : Nat := limits.bufferSize / vertexSize

/-- `MAX_BOUND_TEXTURES` -/
def maxBoundTextures : Nat := 16

/-! ## What is drawn -/

/-- The texture id is a whole number. -/
structure VertexData (K : Type) where
  vertex : Vector3 K
  uv : Vector2 K
  tid : Nat
  color : Vector4 K

/-- The texture is known by its address, if there is one. -/
structure Renderable2D (K T : Type) where
  position : Vector2 K
  scale : Vector2 K
  colour : Vector4 K
  uvs : Fin 4 → Vector2 K
  texture : Option T

structure RenderCommand2D (K T : Type) where
  renderable : Renderable2D K T
  transform : Matrix4 K

structure TriangleInfo (K : Type) where
  p1 : Vector3 K
  p2 : Vector3 K
  p3 : Vector3 K
  col : Vector4 K

section Vertices

variable {K T : Type} [FloatArithmetic K]

/-- The four corners of a sprite. -/
def quadVertices (textureSlot : Nat) (command : RenderCommand2D K T) : List (VertexData K) :=
  let renderable := command.renderable
  let min := renderable.position
  let max : Vector2 K := ⟨min.x + renderable.scale.x, min.y + renderable.scale.y⟩
  [⟨command.transform.apply ⟨min.x, min.y, 0⟩, renderable.uvs 0, textureSlot, renderable.colour⟩,
   ⟨command.transform.apply ⟨max.x, min.y, 0⟩, renderable.uvs 1, textureSlot, renderable.colour⟩,
   ⟨command.transform.apply ⟨max.x, max.y, 0⟩, renderable.uvs 2, textureSlot, renderable.colour⟩,
   ⟨command.transform.apply ⟨min.x, max.y, 0⟩, renderable.uvs 3, textureSlot, renderable.colour⟩]

def triangleVertices (triangle : TriangleInfo K) : List (VertexData K) :=
  [⟨triangle.p1, ⟨0, 0⟩, 0, triangle.col⟩, ⟨triangle.p2, ⟨0, 0⟩, 0, triangle.col⟩,
   ⟨triangle.p3, ⟨0, 0⟩, 0, triangle.col⟩]

end Vertices

/-! ## The renderer -/

/-- A secondary command buffer as it has been recorded: whose buffer it draws from, what is
in it, how many indices it draws, the textures it was built with, and the descriptor set it
binds for them. The buffer is not written to again in the frame. -/
structure Batch (K T : Type) where
  drawCallIndex : Nat
  vertices : List (VertexData K)
  indexCount : Nat
  textures : List T
  descriptorSet : Option Nat

structure Renderer2D (K T : Type) where
  batchDrawCallIndex : Nat
  indexCount : Nat
  /-- What has been written since the buffer was mapped. -/
  buffer : List (VertexData K)
  /-- The slots in use. -/
  textures : List T
  previousFrameTextureCount : Nat
  /-- The set in use, among all that have been created. -/
  descriptorSet : Nat
  /-- The textures each set holds. -/
  descriptorSets : List (List T)
  commandQueue : List (RenderCommand2D K T)
  triangles : List (TriangleInfo K)
  empty : Bool
  /-- The batches of the frame. -/
  recorded : List (Batch K T)

variable {K T : Type}

/-- After `Init`. -/
def init : Renderer2D K T where
  batchDrawCallIndex := 0
  indexCount := 0
  buffer := []
  textures := []
  previousFrameTextureCount := 0
  descriptorSet := 0
  descriptorSets := [[]]
  commandQueue := []
  triangles := []
  empty := false
  recorded := []

namespace Renderer2D

/-! ## Batches -/

section Batches

variable (s : Renderer2D K T)

/-- `Update`, of the first images of a set. -/
def updateSet (textures set : List T) : List T := textures ++ set.drop textures.length

/-- A new set for another number of textures, and otherwise the old one. -/
def updateDesciptorSet : Renderer2D K T :=
  if s.textures.length = 0 then s
  else
    let s :=
      if s.textures.length ≠ s.previousFrameTextureCount then
        { s with descriptorSet := s.descriptorSets.length, descriptorSets := s.descriptorSets ++ [[]] }
      else s
    { s with
      descriptorSets := s.descriptorSets.modify s.descriptorSet (updateSet s.textures)
      previousFrameTextureCount := s.textures.length }

/-- What `Present` records. -/
def batch : Batch K T where
  drawCallIndex := s.batchDrawCallIndex
  vertices := s.buffer
  indexCount := s.indexCount
  textures := s.textures
  descriptorSet := if s.textures.length > 0 then some s.descriptorSet else none

def present : Option (Renderer2D K T) :=
  if s.batchDrawCallIndex < limits.maxBatchDrawCalls then
    if s.indexCount = 0 then some { s with empty := true }
    else
      let s := { s with empty := false }.updateDesciptorSet
      some { s with
        recorded := s.recorded ++ [s.batch]
        indexCount := 0
        batchDrawCallIndex := s.batchDrawCallIndex + 1 }
  else none

/-- Mapping the vertex buffer of the current batch. -/
def mapBuffer : Option (Renderer2D K T) :=
  if s.batchDrawCallIndex < limits.maxBatchDrawCalls then some { s with buffer := [] } else none

def flushAndReset : Option (Renderer2D K T) := do
  let s ← s.present
  { s with textures := [], triangles := [] }.mapBuffer

/-- Vertices written at `m_Buffer`, one after the other. -/
def write (vertices : List (VertexData K)) : Option (Renderer2D K T) := do
  let buffer ← vertices.foldlM (FixedArray.push bufferVertices) s.buffer
  return { s with buffer }

end Batches

/-! ## Sprites -/

section Sprites

variable [DecidableEq T] [FloatArithmetic K] (s : Renderer2D K T)

/-- The slot of a texture, counted from one. -/
def submitTexture (texture : T) : Option (Nat × Renderer2D K T) :=
  if texture ∈ s.textures then some (s.textures.idxOf texture + 1, s)
  else do
    let s ← if s.textures.length ≥ limits.maxTextures then s.flushAndReset else some s
    let textures ← FixedArray.push maxBoundTextures s.textures texture
    return (textures.length, { s with textures })

/-- The body of the loop of `SubmitQueue`. -/
def submitCommand (command : RenderCommand2D K T) : Option (Renderer2D K T) := do
  let s ← if s.indexCount ≥ limits.indiciesSize then s.flushAndReset else some s
  let (textureSlot, s) ←
    match command.renderable.texture with
    | some texture => s.submitTexture texture
    | none => some (0, s)
  let s ← s.write (quadVertices textureSlot command)
  return { s with indexCount := s.indexCount + 6 }

def submitQueue : Option (Renderer2D K T) := s.commandQueue.foldlM submitCommand s

end Sprites

/-! ## Triangles -/

section Triangles

variable [FloatArithmetic K] (s : Renderer2D K T)

def submitInternal (triangle : TriangleInfo K) : Option (Renderer2D K T) := do
  let s ← if s.indexCount ≥ limits.indiciesSize then s.flushAndReset else some s
  let s ← s.write (triangleVertices triangle)
  return { s with indexCount := s.indexCount + 3 }

def submitTriangle (triangle : TriangleInfo K) : Renderer2D K T :=
  { s with triangles := s.triangles ++ [triangle] }

/-- The loop goes over the triangles there were, also when a flush has cleared them. -/
def submitTriangles : Option (Renderer2D K T) := s.triangles.foldlM submitInternal s

end Triangles

/-! ## Frames -/

section Frames

variable [DecidableEq T] [FloatArithmetic K] (s : Renderer2D K T)

/-- `Begin`, with which recording starts anew. -/
def beginFrame : Option (Renderer2D K T) := { s with textures := [], triangles := [], recorded := [] }.mapBuffer

/-- `End` -/
def endFrame : Renderer2D K T := { s with batchDrawCallIndex := 0 }

/-- `BeginScene`, which submits the sprites in sight. -/
def beginScene (commands : List (RenderCommand2D K T)) : Renderer2D K T := { s with commandQueue := commands }

def renderScene : Option (Renderer2D K T) := do
  let s ← s.beginFrame
  let s ← s.submitQueue
  let s ← s.present
  return s.endFrame

end Frames

end Renderer2D

end Lumos.Graphics.Batching
