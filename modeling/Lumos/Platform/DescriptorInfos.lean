import Mathlib.Data.List.Basic

/-!
# What descriptor sets are updated with

The infos of images and buffers, common to the backends.
-/
namespace Lumos.Graphics

inductive DescriptorType where
  | uniformBuffer | uniformBufferDynamic | imageSampler
  deriving DecidableEq

/-- A single texture, or an array of `count` textures. -/
structure ImageInfo (T : Type) where
  textures : List T
  texture : T
  count : Nat
  binding : Nat
  name : String
  entries : count = 1 ∨ count = textures.length

structure BufferInfo (B : Type) where
  buffer : B
  offset : Nat
  size : Nat
  binding : Nat
  name : String
  type : DescriptorType

/-- The three overloads of `Update`. -/
inductive Update (T B : Type) where
  | images (imageInfos : List (ImageInfo T))
  | buffers (bufferInfos : List (BufferInfo B))
  | both (imageInfos : List (ImageInfo T)) (bufferInfos : List (BufferInfo B))

variable {T B : Type}

/-- The textures of an info, whichever way it has them. -/
def ImageInfo.all (info : ImageInfo T) : List T := if info.count = 1 then [info.texture] else info.textures

def Update.imageInfos : Update T B → List (ImageInfo T)
  | .images imageInfos => imageInfos
  | .buffers _ => []
  | .both imageInfos _ => imageInfos

def Update.bufferInfos : Update T B → List (BufferInfo B)
  | .images _ => []
  | .buffers bufferInfos => bufferInfos
  | .both _ bufferInfos => bufferInfos

def Update.bringsImages : Update T B → Prop
  | .images _ => True
  | .buffers _ => False
  | .both _ _ => True

theorem ImageInfo.length_all (info : ImageInfo T) : info.all.length = info.count := by
  unfold ImageInfo.all
  split
  · next h => exact h.symm
  · next h => exact (info.entries.resolve_left h).symm

end Lumos.Graphics
