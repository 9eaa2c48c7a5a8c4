import Lumos.Library.Bytes
import Lumos.Maths.FloatArithmetic

/-!
# Decoding the primitives of a glTF mesh

`LoadMesh` copies as many bytes as an accessor would take without gaps and goes through them
with the element type it expects for the attribute. What is out of the bounds of a vector
faults, as does an `int` that overflows.
-/
namespace Lumos.Graphics.GLTFLoader

open Bytes Maths

/-- A `float`, by its bits. -/
abbrev Float32 := UInt32

inductive ComponentType where
  | byte | unsignedByte | short | unsignedShort | unsignedInt | float
  deriving DecidableEq

/-- `GLTF_COMPONENT_BYTE_SIZE_LOOKUP` -/
def ComponentType.byteSize : ComponentType → Nat
  | .byte => 1
  | .unsignedByte => 1
  | .short => 2
  | .unsignedShort => 2
  | .unsignedInt => 4
  | .float => 4

inductive AccessorType where
  | scalar | vec2 | vec3 | vec4 | mat2 | mat3 | mat4
  deriving DecidableEq

/-- `GLTF_COMPONENT_LENGTH_LOOKUP` -/
def AccessorType.componentLength : AccessorType → Nat
  | .scalar => 1
  | .vec2 => 2
  | .vec3 => 3
  | .vec4 => 4
  | .mat2 => 4
  | .mat3 => 9
  | .mat4 => 16

structure BufferView where
  buffer : Nat
  byteOffset : Nat
  /-- Zero where the elements follow each other without gaps. -/
  byteStride : Nat

structure Accessor where
  bufferView : BufferView
  byteOffset : Nat
  componentType : ComponentType
  count : Nat
  type : AccessorType

/-- The attributes are in a map, each name once. -/
structure Primitive where
  attributes : List (String × Accessor)
  indices : Option Accessor

structure Vertex where
  position : Vector3 Float32
  colours : Vector4 Float32
  texCoords : Vector2 Float32
  normal : Vector3 Float32
  tangent : Vector3 Float32

/-- `Vertex()` -/
def Vertex.zero : Vertex := ⟨⟨0, 0, 0⟩, ⟨0, 0, 0, 0⟩, ⟨0, 0⟩, ⟨0, 0, 0⟩, ⟨0, 0, 0⟩⟩

/-- The attributes `LoadMesh` looks for. -/
inductive Kind where
  | position | normal | texCoords | colours | tangent
  deriving DecidableEq

def Kind.ofName (name : String) : Option Kind :=
  if name = "POSITION" then some .position
  else if name = "NORMAL" then some .normal
  else if name = "TEXCOORD_0" then some .texCoords
  else if name = "COLOR_0" then some .colours
  else if name = "TANGENT" then some .tangent
  else none

/-- How many floats there are in the type the data is taken for. -/
def Kind.width : Kind → Nat
  | .position => 3
  | .normal => 3
  | .texCoords => 2
  | .colours => 4
  | .tangent => 3

/-! ## The code -/

/-- The product of two `int`s. -/
def intMul (a b : Int) : Option Int := if -2 ^ 31 ≤ a * b ∧ a * b < 2 ^ 31 then some (a * b) else none

/-- `bufferLength`; a negative one faults when the vector is made. -/
def Accessor.bufferLength (accessor : Accessor) : Option Nat := do
  let length ← intMul (Int.bmod accessor.count (2 ^ 32)) accessor.type.componentLength
  let length ← intMul length accessor.componentType.byteSize
  if 0 ≤ length then some length.toNat else none

def Accessor.bufferOffset (accessor : Accessor) : Nat := accessor.bufferView.byteOffset + accessor.byteOffset

/-- `data` -/
def Accessor.data (buffers : Nat → List UInt8) (accessor : Accessor) : Option (List UInt8) := do
  let length ← accessor.bufferLength
  let buffer := buffers accessor.bufferView.buffer
  if accessor.bufferOffset + length ≤ buffer.length then some (slice buffer accessor.bufferOffset length) else none

/-- The bits of the float at `start`. -/
def floatAt (bytes : List UInt8) (start : Nat) : Float32 := UInt32.ofNat (littleEndian (slice bytes start 4))

def floatsAt (bytes : List UInt8) (start width : Nat) : List Float32 :=
  (List.range width).map fun c => floatAt bytes (start + 4 * c)

variable (place : Vector3 Float32 → Vector3 Float32)

/-- One assignment to a vertex. Positions, normals and tangents are multiplied with the world
matrix, which is `place`. -/
def Vertex.store (vertex : Vertex) : Kind → List Float32 → Vertex
  | .position, [x, y, z] => { vertex with position := place ⟨x, y, z⟩ }
  | .normal, [x, y, z] => { vertex with normal := place ⟨x, y, z⟩ }
  | .texCoords, [x, y] => { vertex with texCoords := ⟨x, y⟩ }
  | .colours, [x, y, z, w] => { vertex with colours := ⟨x, y, z, w⟩ }
  | .tangent, [x, y, z] => { vertex with tangent := place ⟨x, y, z⟩ }
  | _, _ => vertex

/-- The loop over the elements, after `p` of them. -/
def storeElements (data : List UInt8) (kind : Kind) : Nat → List Vertex → Option (List Vertex)
  | 0, vertices => some vertices
  | p + 1, vertices => do
    let vertices ← storeElements data kind p vertices
    if 4 * kind.width * p + 4 * kind.width ≤ data.length ∧ p < vertices.length then
      some (vertices.modify p fun vertex => vertex.store place kind (floatsAt data (4 * kind.width * p) kind.width))
    else none

variable (buffers : Nat → List UInt8)

/-- The loop over the attributes. -/
def loadAttributes : List (String × Accessor) → List Vertex → Option (List Vertex)
  | [], vertices => some vertices
  | (name, accessor) :: attributes, vertices => do
    let data ← accessor.data buffers
    let vertices ← match Kind.ofName name with
      | some kind => storeElements place data kind accessor.count vertices
      | none => some vertices
    loadAttributes attributes vertices

/-- The loops over the indices; those of one byte are left as they are. -/
def loadIndices (data : List UInt8) (size : Nat) : Nat → List Nat → Option (List Nat)
  | 0, indices => some indices
  | k + 1, indices => do
    let indices ← loadIndices data size k indices
    if size * k + size ≤ data.length ∧ k < indices.length then
      some (indices.set k (littleEndian (slice data (size * k) size)))
    else none

/-- One round of the loop over the primitives: the indices and vertices of the mesh. -/
def loadMesh (primitive : Primitive) : Option (List Nat × List Vertex) := do
  let accessor ← primitive.indices
  let indices := List.replicate accessor.count 0
  let vertices := List.replicate accessor.count Vertex.zero
  let vertices ← loadAttributes place buffers primitive.attributes vertices
  let data ← accessor.data buffers
  let size := accessor.componentType.byteSize
  let indices ← if size = 2 ∨ size = 4 then loadIndices data size accessor.count indices else some indices
  some (indices, vertices)

/-! ## The elements of an accessor -/

def Accessor.elementSize (accessor : Accessor) : Nat :=
  accessor.type.componentLength * accessor.componentType.byteSize

/-- From one element to the next. -/
def Accessor.stride (accessor : Accessor) : Nat :=
  if accessor.bufferView.byteStride = 0 then accessor.elementSize else accessor.bufferView.byteStride

/-- The bytes of a component of an element. -/
def Accessor.component (accessor : Accessor) (i c : Nat) : List UInt8 :=
  slice (buffers accessor.bufferView.buffer)
    (accessor.bufferOffset + i * accessor.stride + c * accessor.componentType.byteSize) accessor.componentType.byteSize

variable (normalised : ComponentType → Nat → Float32)

/-- The element as floats, where integers are normalised. -/
def Accessor.element (accessor : Accessor) (i : Nat) : List Float32 :=
  (List.range accessor.type.componentLength).map fun c =>
    let number := littleEndian (accessor.component buffers i c)
    if accessor.componentType = .float then UInt32.ofNat number else normalised accessor.componentType number

/-- The field of the vertex has the value of the element. A colour of three components is
opaque; the fourth component of a tangent has no place in a vertex. -/
def Vertex.Has (vertex : Vertex) : Kind → List Float32 → Prop
  | .position, x :: y :: z :: _ => vertex.position = place ⟨x, y, z⟩
  | .normal, x :: y :: z :: _ => vertex.normal = place ⟨x, y, z⟩
  | .texCoords, x :: y :: _ => vertex.texCoords = ⟨x, y⟩
  | .colours, [x, y, z] => vertex.colours = ⟨x, y, z, 0x3f800000⟩
  | .colours, x :: y :: z :: w :: _ => vertex.colours = ⟨x, y, z, w⟩
  | .tangent, x :: y :: z :: _ => vertex.tangent = place ⟨x, y, z⟩
  | _, _ => False

/-- Nothing out of bounds is read or written, and every vertex and index is the element of its
number. -/
def Decodes (primitive : Primitive) : Prop :=
  ∃ accessor indices vertices, primitive.indices = some accessor ∧
    loadMesh place buffers primitive = some (indices, vertices) ∧
    (∀ k < accessor.count, indices[k]? = some (littleEndian (accessor.component buffers k 0))) ∧
    ∀ name attr kind, (name, attr) ∈ primitive.attributes → Kind.ofName name = some kind →
      ∀ i < attr.count, ∃ vertex, vertices[i]? = some vertex ∧
        vertex.Has place kind (attr.element buffers normalised i)

/-! ## What the format allows -/

/-- An accessor with all its elements in a buffer of this length. -/
structure Accessor.Valid (accessor : Accessor) (length : Nat) : Prop where
  count : 0 < accessor.count
  wide : accessor.elementSize ≤ accessor.stride
  aligned : accessor.componentType.byteSize ∣ accessor.stride
  inside : accessor.bufferOffset + (accessor.count - 1) * accessor.stride + accessor.elementSize ≤ length

def IndexType (accessor : Accessor) : Prop :=
  accessor.type = .scalar ∧ (accessor.componentType = .unsignedByte ∨ accessor.componentType = .unsignedShort ∨
    accessor.componentType = .unsignedInt)

def FloatOrNormalised (type : ComponentType) : Prop := type = .float ∨ type = .unsignedByte ∨ type = .unsignedShort

def AttributeType (accessor : Accessor) : Kind → Prop
  | .position => accessor.type = .vec3 ∧ accessor.componentType = .float
  | .normal => accessor.type = .vec3 ∧ accessor.componentType = .float
  | .texCoords => accessor.type = .vec2 ∧ FloatOrNormalised accessor.componentType
  | .colours => (accessor.type = .vec3 ∨ accessor.type = .vec4) ∧ FloatOrNormalised accessor.componentType
  | .tangent => accessor.type = .vec4 ∧ accessor.componentType = .float

structure Primitive.Valid (primitive : Primitive) (lengths : Nat → Nat) : Prop where
  names : (primitive.attributes.map Prod.fst).Nodup
  attributes : ∀ name accessor, (name, accessor) ∈ primitive.attributes →
    accessor.Valid (lengths accessor.bufferView.buffer)
  types : ∀ name accessor kind, (name, accessor) ∈ primitive.attributes → Kind.ofName name = some kind →
    AttributeType accessor kind
  indices : ∀ accessor ∈ primitive.indices, accessor.Valid (lengths accessor.bufferView.buffer) ∧ IndexType accessor

/-! ## What the loader takes for granted -/

/-- The elements are one after the other, if there is more than one. -/
def Accessor.Packed (accessor : Accessor) (size : Nat) : Prop := accessor.count = 1 ∨ accessor.stride = size

/-- Floats, as many as the vertex has, one element right after the other. -/
structure Accessor.PackedAs (accessor : Accessor) (kind : Kind) : Prop where
  floats : accessor.componentType = .float
  wide : kind.width ≤ accessor.type.componentLength
  packed : accessor.Packed (4 * kind.width)

structure Primitive.Expected (primitive : Primitive) (accessor : Accessor) : Prop where
  indices : primitive.indices = some accessor
  type : accessor.componentType ≠ .unsignedByte
  packed : accessor.Packed accessor.componentType.byteSize
  size : accessor.count * accessor.elementSize < 2 ^ 31
  lengths : ∀ name attr, (name, attr) ∈ primitive.attributes → attr.bufferLength ≠ none
  attributes : ∀ name attr kind, (name, attr) ∈ primitive.attributes → Kind.ofName name = some kind →
    attr.count ≤ accessor.count ∧ attr.count * attr.elementSize < 2 ^ 31 ∧ attr.PackedAs kind

end Lumos.Graphics.GLTFLoader
