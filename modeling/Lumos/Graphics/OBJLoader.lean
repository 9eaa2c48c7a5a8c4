import Lumos.Library.FirstIndex
import Lumos.Maths.FloatArithmetic

/-!
# `Model::LoadOBJ`

The corners of a shape, each of which names its position, texture coordinate and normal by
their indices, become a vertex buffer and an index buffer. Equal corners share a vertex.
-/
namespace Lumos.Graphics.OBJ

open FirstIndex Maths

variable {F : Type}

/-! ## Equality and hashes -/

structure Vertex (F : Type) where
  position : Vector3 F
  colours : Vector4 F
  texCoords : Vector2 F
  normal : Vector3 F
  tangent : Vector3 F

/-- `Vertex()` -/
def Vertex.zero [Zero F] : Vertex F :=
  ⟨Vector3.fill 0, Vector4.fill 0, Vector2.fill 0, Vector3.fill 0, Vector3.fill 0⟩

section Equality

variable [BEq F]

scoped instance : BEq (Vector2 F) := ⟨fun v rhs => v.x == rhs.x && v.y == rhs.y⟩

scoped instance : BEq (Vector3 F) := ⟨fun v rhs => v.x == rhs.x && v.y == rhs.y && v.z == rhs.z⟩

scoped instance : BEq (Vector4 F) := ⟨fun v rhs => v.x == rhs.x && v.y == rhs.y && v.z == rhs.z && v.w == rhs.w⟩

instance : BEq (Vertex F) := ⟨fun vertex other =>
  vertex.position == other.position && vertex.texCoords == other.texCoords && vertex.colours == other.colours &&
    vertex.normal == other.normal && vertex.tangent == other.tangent⟩

end Equality

section Hash

variable [Hashable F]

scoped instance : Hashable (Vector2 F) := ⟨fun v => hash v.x ^^^ (hash v.y * 997)⟩

scoped instance : Hashable (Vector3 F) := ⟨fun v => hash v.x ^^^ (hash v.y * 997) ^^^ (hash v.z * 999983)⟩

scoped instance : Hashable (Vector4 F) :=
  ⟨fun v => hash v.x ^^^ (hash v.y * 997) ^^^ (hash v.z * 999983) ^^^ (hash v.w * 999999937)⟩

instance : Hashable (Vertex F) := ⟨fun vertex =>
  hash vertex.position ^^^ (hash vertex.texCoords <<< 1) ^^^ (hash vertex.colours <<< 1) ^^^
    (hash vertex.normal <<< 1) ^^^ (hash vertex.tangent <<< 1)⟩

end Hash

/-! ## Shapes -/

/-- `attrib_t`, the numbers of which come in twos and threes. -/
structure Attributes (F : Type) where
  vertices : List F
  normals : List F
  texcoords : List F

/-- `index_t`, where a missing texture coordinate or normal is -1. -/
structure Index where
  vertexIndex : Int
  normalIndex : Int
  texcoordIndex : Int

structure Shape where
  indices : List Index
  materialIds : List Int

/-- What the loader reads of a material for its vertices. -/
structure Material (F : Type) where
  diffuse : Vector3 F

/-- The entry of a vector at an index that is computed as an `int`. -/
def element (xs : List F) (i : Int) : Option F := if 0 ≤ i ∧ i < 2 ^ 31 then xs[i.toNat]? else none

section Corners

variable [Zero F] [One F] [Sub F] (attrib : Attributes F) (materials : List (Material F)) (materialIds : List Int)

def readTexCoords (texcoordIndex : Int) : Option (Vector2 F) :=
  if attrib.texcoords ≠ [] then do
    let x ← element attrib.texcoords (2 * texcoordIndex + 0)
    let y ← element attrib.texcoords (2 * texcoordIndex + 1)
    return ⟨x, 1 - y⟩
  else some ⟨0, 0⟩

def readVector3 (xs : List F) (index : Int) : Option (Vector3 F) := do
  let x ← element xs (3 * index + 0)
  let y ← element xs (3 * index + 1)
  let z ← element xs (3 * index + 2)
  return ⟨x, y, z⟩

def readNormal (normalIndex : Int) : Option (Vector3 F) :=
  if attrib.normals ≠ [] then readVector3 attrib.normals normalIndex else some ⟨0, 0, 0⟩

/-- The colour of the first material, whichever face the corner is of. -/
def readColour : Option (Vector4 F) := do
  let id ← materialIds[0]?
  if 0 ≤ id then do
    let mp ← materials[id.toNat]?
    return ⟨mp.diffuse.x, mp.diffuse.y, mp.diffuse.z, 1⟩
  else some (Vector4.fill 0)

/-- The vertex of a corner. -/
def expand (index : Index) : Option (Vertex F) := do
  let texCoords ← readTexCoords attrib index.texcoordIndex
  let position ← readVector3 attrib.vertices index.vertexIndex
  let normal ← readNormal attrib index.normalIndex
  let colours ← readColour materials materialIds
  return { (Vertex.zero : Vertex F) with position, texCoords, normal, colours }

end Corners

/-! ## Buffers -/

section Loop

variable [BEq F] [Hashable F]

structure Loop (F : Type) [BEq F] [Hashable F] where
  vertexCount : Nat
  vertices : List (Vertex F)
  indices : List Nat
  uniqueVertices : Std.HashMap (Vertex F) Nat

/-- A write to an array, which fails behind its end. -/
def write {α : Type} (xs : List α) (i : Nat) (x : α) : Option (List α) :=
  if i < xs.length then some (xs.set i x) else none

/-- The part of a turn that begins with `uniqueVertices.count(vertex)`. -/
def Loop.add (s : Loop F) (vertex : Vertex F) : Option (Loop F) := do
  let s ← if !s.uniqueVertices.contains vertex then do
      let vertices ← write s.vertices s.vertexCount vertex
      pure { s with uniqueVertices := s.uniqueVertices.insert vertex s.vertexCount, vertices }
    else pure s
  -- `uniqueVertices[vertex]` puts a zero there if the vertex is not found.
  let indices ← write s.indices s.vertexCount (s.uniqueVertices.getD vertex 0)
  return { s with
    indices
    uniqueVertices := s.uniqueVertices.insertIfNew vertex 0
    vertexCount := s.vertexCount + 1 }

variable [Zero F] [One F] [Sub F] (attrib : Attributes F) (materials : List (Material F)) (shape : Shape)

/-- The arrays have a length of type `uint32_t`, and what is in them at first is zero here. -/
def Loop.start : Loop F where
  vertexCount := 0
  vertices := List.replicate (shape.indices.length % 2 ^ 32) Vertex.zero
  indices := List.replicate (shape.indices.length % 2 ^ 32) 0
  uniqueVertices := ∅

def turn (s : Loop F) (index : Index) : Option (Loop F) := do
  let vertex ← expand attrib materials shape.materialIds index
  s.add vertex

structure Buffers (F : Type) where
  vertices : List (Vertex F)
  indices : List Nat

/-- The buffers of a shape. It fails where an array is read or written out of range. -/
def loadShape : Option (Buffers F) := do
  let s ← shape.indices.foldlM (turn attrib materials shape) (Loop.start shape)
  return ⟨s.vertices, s.indices⟩

end Loop

/-! ## The hash follows the equality -/

section Lawful

variable [BEq F]

@[simp] theorem beq_vector2 (v rhs : Vector2 F) :
    (v == rhs) = true ↔ (v.x == rhs.x) = true ∧ (v.y == rhs.y) = true := Bool.and_eq_true_iff

@[simp] theorem beq_vector3 (v rhs : Vector3 F) :
    (v == rhs) = true ↔ (v.x == rhs.x) = true ∧ (v.y == rhs.y) = true ∧ (v.z == rhs.z) = true := by
  change (_ && _ && _) = true ↔ _
  rw [Bool.and_eq_true_iff, Bool.and_eq_true_iff, and_assoc]

@[simp] theorem beq_vector4 (v rhs : Vector4 F) : (v == rhs) = true ↔
    (v.x == rhs.x) = true ∧ (v.y == rhs.y) = true ∧ (v.z == rhs.z) = true ∧ (v.w == rhs.w) = true := by
  change (_ && _ && _ && _) = true ↔ _
  rw [Bool.and_eq_true_iff, Bool.and_eq_true_iff, Bool.and_eq_true_iff, and_assoc, and_assoc]

@[simp] theorem beq_vertex (vertex other : Vertex F) : (vertex == other) = true ↔
    (vertex.position == other.position) = true ∧ (vertex.texCoords == other.texCoords) = true ∧
      (vertex.colours == other.colours) = true ∧ (vertex.normal == other.normal) = true ∧
        (vertex.tangent == other.tangent) = true := by
  change (_ && _ && _ && _ && _) = true ↔ _
  rw [Bool.and_eq_true_iff, Bool.and_eq_true_iff, Bool.and_eq_true_iff, Bool.and_eq_true_iff, and_assoc, and_assoc,
    and_assoc]

section Equivalence

variable [EquivBEq F]

scoped instance : EquivBEq (Vector2 F) where
  rfl := by simp
  symm h := by simpa only [beq_vector2, BEq.comm] using h
  trans h h' := by
    rw [beq_vector2] at h h' ⊢
    exact ⟨BEq.trans h.1 h'.1, BEq.trans h.2 h'.2⟩

scoped instance : EquivBEq (Vector3 F) where
  rfl := by simp
  symm h := by simpa only [beq_vector3, BEq.comm] using h
  trans h h' := by
    rw [beq_vector3] at h h' ⊢
    exact ⟨BEq.trans h.1 h'.1, BEq.trans h.2.1 h'.2.1, BEq.trans h.2.2 h'.2.2⟩

scoped instance : EquivBEq (Vector4 F) where
  rfl := by simp
  symm h := by simpa only [beq_vector4, BEq.comm] using h
  trans h h' := by
    rw [beq_vector4] at h h' ⊢
    exact ⟨BEq.trans h.1 h'.1, BEq.trans h.2.1 h'.2.1, BEq.trans h.2.2.1 h'.2.2.1, BEq.trans h.2.2.2 h'.2.2.2⟩

instance : EquivBEq (Vertex F) where
  rfl := by simp
  symm h := by simpa only [beq_vertex, BEq.comm] using h
  trans h h' := by
    rw [beq_vertex] at h h' ⊢
    exact ⟨BEq.trans h.1 h'.1, BEq.trans h.2.1 h'.2.1, BEq.trans h.2.2.1 h'.2.2.1, BEq.trans h.2.2.2.1 h'.2.2.2.1,
      BEq.trans h.2.2.2.2 h'.2.2.2.2⟩

end Equivalence

section Hashes

variable [Hashable F] [LawfulHashable F]

scoped instance : LawfulHashable (Vector2 F) where
  hash_eq v rhs h := by
    rw [beq_vector2] at h
    change hash v.x ^^^ _ = hash rhs.x ^^^ _
    rw [hash_eq h.1, hash_eq h.2]

scoped instance : LawfulHashable (Vector3 F) where
  hash_eq v rhs h := by
    rw [beq_vector3] at h
    change hash v.x ^^^ _ ^^^ _ = hash rhs.x ^^^ _ ^^^ _
    rw [hash_eq h.1, hash_eq h.2.1, hash_eq h.2.2]

scoped instance : LawfulHashable (Vector4 F) where
  hash_eq v rhs h := by
    rw [beq_vector4] at h
    change hash v.x ^^^ _ ^^^ _ ^^^ _ = hash rhs.x ^^^ _ ^^^ _ ^^^ _
    rw [hash_eq h.1, hash_eq h.2.1, hash_eq h.2.2.1, hash_eq h.2.2.2]

instance : LawfulHashable (Vertex F) where
  hash_eq vertex other h := by
    rw [beq_vertex] at h
    change hash vertex.position ^^^ _ ^^^ _ ^^^ _ ^^^ _ = hash other.position ^^^ _ ^^^ _ ^^^ _ ^^^ _
    rw [hash_eq h.1, hash_eq h.2.1, hash_eq h.2.2.1, hash_eq h.2.2.2.1, hash_eq h.2.2.2.2]

end Hashes

end Lawful

/-! ## Every turn adds a corner -/

section Turns

variable [BEq F] [Hashable F] {s : Loop F} {n : Nat} {corners : List (Vertex F)} {vertex : Vertex F}

/-- The state of the loop after some corners. -/
structure Loaded (n : Nat) (corners : List (Vertex F)) (s : Loop F) : Prop where
  count : s.vertexCount = corners.length
  vertices_length : s.vertices.length = n
  indices_length : s.indices.length = n
  map : ∀ vertex : Vertex F, s.uniqueVertices[vertex]? = firstIndex corners vertex
  represents : Represents corners s.vertices s.indices

theorem write_of_lt {α : Type} {xs : List α} {i : Nat} (h : i < xs.length) (x : α) :
    write xs i x = some (xs.set i x) := if_pos h

theorem write_of_le {α : Type} {xs : List α} {i : Nat} (h : xs.length ≤ i) (x : α) : write xs i x = none :=
  if_neg (Nat.not_lt.mpr h)

/-- Behind the end of the arrays every turn fails. -/
theorem Loaded.add_full (h : Loaded n corners s) (hfull : n ≤ corners.length) : s.add vertex = none := by
  have hindices : ∀ x, write s.indices s.vertexCount x = none := fun x =>
    write_of_le (by rw [h.count, h.indices_length]; exact hfull) x
  have hvertices : ∀ x, write s.vertices s.vertexCount x = none := fun x =>
    write_of_le (by rw [h.count, h.vertices_length]; exact hfull) x
  rw [Loop.add]
  split_ifs
  · simp [hvertices]
  · simp [hindices]

variable [EquivBEq F] [LawfulHashable F]

theorem Loaded.add (h : Loaded n corners s) (hroom : corners.length < n) (vertex : Vertex F) :
    ∃ s', s.add vertex = some s' ∧ Loaded n (corners ++ [vertex]) s' := by
  have hcontains : s.uniqueVertices.contains vertex = (firstIndex corners vertex).isSome := by
    rw [Std.HashMap.contains_eq_isSome_getElem?, h.map]
  have hvertices : ∀ x, write s.vertices s.vertexCount x = some (s.vertices.set corners.length x) := fun x => by
    rw [h.count]
    exact write_of_lt (by rw [h.vertices_length]; exact hroom) x
  have hindices : ∀ x, write s.indices s.vertexCount x = some (s.indices.set corners.length x) := fun x => by
    rw [h.count]
    exact write_of_lt (by rw [h.indices_length]; exact hroom) x
  cases hfirst : firstIndex corners vertex with
  | none =>
    have hnew : s.uniqueVertices.contains vertex = false := by rw [hcontains, hfirst, Option.isSome_none]
    refine ⟨⟨s.vertexCount + 1, s.vertices.set corners.length vertex, s.indices.set corners.length corners.length,
      (s.uniqueVertices.insert vertex s.vertexCount).insertIfNew vertex 0⟩, ?_, ?_⟩
    · have hget : (s.uniqueVertices.insert vertex s.vertexCount).getD vertex 0 = corners.length := by
        rw [Std.HashMap.getD_insert_self, h.count]
      simp [Loop.add, hnew, hvertices, hindices, hget]
    · refine ⟨?_, ?_, ?_, fun other => ?_, ?_⟩
      · rw [List.length_append, List.length_singleton, h.count]
      · rw [List.length_set, h.vertices_length]
      · rw [List.length_set, h.indices_length]
      · have hkeep : ¬ ((vertex == other) = true ∧ ¬ vertex ∈ s.uniqueVertices.insert vertex s.vertexCount) :=
          fun hand => hand.2 Std.HashMap.mem_insert_self
        rw [Std.HashMap.getElem?_insertIfNew, if_neg hkeep, Std.HashMap.getElem?_insert, h.map, h.count,
          firstIndex_concat]
        split_ifs with heq
        · rw [← firstIndex_congr heq, hfirst]
          rfl
        · exact Option.or_none.symm
      · apply h.represents.concat_new _ _ hfirst
        · rw [h.indices_length]
          exact hroom
        · rw [h.vertices_length]
          exact hroom
  | some k =>
    have hold : s.uniqueVertices.contains vertex = true := by rw [hcontains, hfirst, Option.isSome_some]
    refine ⟨⟨s.vertexCount + 1, s.vertices, s.indices.set corners.length k,
      s.uniqueVertices.insertIfNew vertex 0⟩, ?_, ?_⟩
    · have hget : s.uniqueVertices.getD vertex 0 = k := by
        rw [Std.HashMap.getD_eq_getD_getElem?, h.map, hfirst, Option.getD_some]
      simp [Loop.add, hold, hindices, hget]
    · refine ⟨?_, h.vertices_length, ?_, fun other => ?_, ?_⟩
      · rw [List.length_append, List.length_singleton, h.count]
      · rw [List.length_set, h.indices_length]
      · have hkeep : ¬ ((vertex == other) = true ∧ ¬ vertex ∈ s.uniqueVertices) :=
          fun hand => hand.2 (Std.HashMap.contains_iff_mem.mp hold)
        rw [Std.HashMap.getElem?_insertIfNew, if_neg hkeep, h.map, firstIndex_concat]
        split_ifs with heq
        · rw [← firstIndex_congr heq, hfirst]
          rfl
        · exact Option.or_none.symm
      · apply h.represents.concat_old _ hfirst
        rw [h.indices_length]
        exact hroom

end Turns

/-! ## What is read -/

section Reads

variable {xs : List F} {i : Int} {attrib : Attributes F} {materials : List (Material F)} {shape : Shape}
  {index : Index}

theorem isSome_element : (element xs i).isSome = true ↔ 0 ≤ i ∧ i < 2 ^ 31 ∧ i < xs.length := by
  rw [element]
  split_ifs with hrange
  · rw [isSome_getElem?]
    omega
  · rw [Option.isSome_none]
    constructor
    · exact fun h => absurd h Bool.false_ne_true
    · exact fun h => absurd ⟨h.1, h.2.1⟩ hrange

theorem isSome_readVector3 : (readVector3 xs i).isSome = true ↔
    0 ≤ 3 * i ∧ 3 * i + 2 < 2 ^ 31 ∧ 3 * i + 2 < xs.length := by
  have hparts : (readVector3 xs i).isSome = true ↔ (element xs (3 * i + 0)).isSome = true ∧
      (element xs (3 * i + 1)).isSome = true ∧ (element xs (3 * i + 2)).isSome = true := by
    rw [readVector3]
    cases element xs (3 * i + 0) <;> cases element xs (3 * i + 1) <;> cases element xs (3 * i + 2) <;> simp
  rw [hparts, isSome_element, isSome_element, isSome_element]
  omega

variable [Zero F] [One F] [Sub F]

theorem isSome_readTexCoords : (readTexCoords attrib i).isSome = true ↔
    attrib.texcoords = [] ∨ 0 ≤ 2 * i ∧ 2 * i + 1 < 2 ^ 31 ∧ 2 * i + 1 < attrib.texcoords.length := by
  by_cases hempty : attrib.texcoords = []
  · simp [readTexCoords, hempty]
  · have hparts : (readTexCoords attrib i).isSome = true ↔ (element attrib.texcoords (2 * i + 0)).isSome = true ∧
        (element attrib.texcoords (2 * i + 1)).isSome = true := by
      rw [readTexCoords, if_pos hempty]
      cases element attrib.texcoords (2 * i + 0) <;> cases element attrib.texcoords (2 * i + 1) <;> simp
    rw [hparts, isSome_element, isSome_element, or_iff_right hempty]
    omega

omit [One F] [Sub F] in
theorem isSome_readNormal : (readNormal attrib i).isSome = true ↔
    attrib.normals = [] ∨ 0 ≤ 3 * i ∧ 3 * i + 2 < 2 ^ 31 ∧ 3 * i + 2 < attrib.normals.length := by
  by_cases hempty : attrib.normals = []
  · simp [readNormal, hempty]
  · rw [readNormal, if_pos hempty, isSome_readVector3, or_iff_right hempty]

/-- What holds of the corners and materials of a shape: an index is in range, or -1 for a
texture coordinate or a normal that is missing. -/
structure Reported (attrib : Attributes F) (materials : List (Material F)) (shape : Shape) : Prop where
  vertex : ∀ index ∈ shape.indices, 0 ≤ index.vertexIndex ∧ 3 * index.vertexIndex + 2 < attrib.vertices.length
  texcoord : ∀ index ∈ shape.indices, index.texcoordIndex = -1 ∨
    0 ≤ index.texcoordIndex ∧ 2 * index.texcoordIndex + 1 < attrib.texcoords.length
  normal : ∀ index ∈ shape.indices, index.normalIndex = -1 ∨
    0 ≤ index.normalIndex ∧ 3 * index.normalIndex + 2 < attrib.normals.length
  material : shape.indices ≠ [] → ∃ id : Int, shape.materialIds[0]? = some id ∧ id < materials.length

/-- A corner has all attributes there are any of, and they are within the range of `int`. -/
structure Covered (attrib : Attributes F) (index : Index) : Prop where
  vertex : 3 * index.vertexIndex + 2 < 2 ^ 31
  texcoord : attrib.texcoords = [] ∨ index.texcoordIndex ≠ -1 ∧ 2 * index.texcoordIndex + 1 < 2 ^ 31
  normal : attrib.normals = [] ∨ index.normalIndex ≠ -1 ∧ 3 * index.normalIndex + 2 < 2 ^ 31

omit [Sub F] in
theorem Reported.isSome_readColour (h : Reported attrib materials shape) (hindices : shape.indices ≠ []) :
    ∃ colours, readColour materials shape.materialIds = some colours := by
  obtain ⟨id, hid, hlt⟩ := h.material hindices
  apply Option.isSome_iff_exists.mp
  rw [readColour, hid]
  by_cases hpos : 0 ≤ id
  · have hget : id.toNat < materials.length := by omega
    simp [hpos, hget]
  · simp [hpos]

theorem Reported.isSome_expand_iff (h : Reported attrib materials shape) (hindex : index ∈ shape.indices) :
    (expand attrib materials shape.materialIds index).isSome = true ↔ Covered attrib index := by
  obtain ⟨colours, hcolours⟩ := h.isSome_readColour (List.ne_nil_of_mem hindex)
  have htexcoord := h.texcoord index hindex
  have hnormal := h.normal index hindex
  have hvertex := h.vertex index hindex
  have hparts : (expand attrib materials shape.materialIds index).isSome = true ↔
      (readTexCoords attrib index.texcoordIndex).isSome = true ∧
        (readVector3 attrib.vertices index.vertexIndex).isSome = true ∧
          (readNormal attrib index.normalIndex).isSome = true := by
    rw [expand, hcolours]
    cases readTexCoords attrib index.texcoordIndex <;> cases readVector3 attrib.vertices index.vertexIndex <;>
      cases readNormal attrib index.normalIndex <;> simp
  rw [hparts, isSome_readTexCoords, isSome_readVector3, isSome_readNormal]
  constructor
  · rintro ⟨ht, hv, hn⟩
    refine ⟨hv.2.1, ht.imp_right fun ht => ?_, hn.imp_right fun hn => ?_⟩ <;> omega
  · rintro ⟨hv, ht, hn⟩
    refine ⟨ht.imp_right fun ht => ?_, ?_, hn.imp_right fun hn => ?_⟩ <;> omega

end Reads

/-! ## Whole shapes -/

section Shapes

variable [BEq F] [Hashable F] [EquivBEq F] [LawfulHashable F] [Zero F] [One F] [Sub F] {s : Loop F} {n : Nat}
  {corners vertices : List (Vertex F)} {attrib : Attributes F} {materials : List (Material F)} {shape : Shape}
  {indices : List Index}

theorem foldlM_turn (h : Loaded n corners s)
    (hvertices : indices.map (expand attrib materials shape.materialIds) = vertices.map some)
    (hroom : corners.length + vertices.length ≤ n) :
    ∃ s', indices.foldlM (turn attrib materials shape) s = some s' ∧ Loaded n (corners ++ vertices) s' := by
  induction indices generalizing s corners vertices with
  | nil =>
    obtain rfl := List.map_eq_nil_iff.mp hvertices.symm
    rw [List.append_nil]
    exact ⟨s, rfl, h⟩
  | cons index indices ih =>
    obtain ⟨vertex, rest, rfl, hvertex, hrest⟩ := List.map_eq_cons_iff.mp hvertices.symm
    rw [List.length_cons] at hroom
    obtain ⟨s₁, hadd, h₁⟩ := h.add (by omega) vertex
    have hturn : turn attrib materials shape s index = some s₁ := by
      rw [turn, ← hvertex]
      exact hadd
    have hroom₁ : (corners ++ [vertex]).length + rest.length ≤ n := by
      rw [List.length_append, List.length_singleton]
      omega
    obtain ⟨s', hfold, h'⟩ := ih h₁ hrest.symm hroom₁
    refine ⟨s', ?_, ?_⟩
    · rw [List.foldlM_cons, hturn]
      exact hfold
    · rw [List.append_assoc] at h'
      exact h'

/-- A loop that comes to its end has found all vertices, and had room for them. -/
theorem of_foldlM_turn {s' : Loop F} (h : Loaded n corners s)
    (hfold : indices.foldlM (turn attrib materials shape) s = some s') :
    corners.length + indices.length ≤ max n corners.length ∧
      ∀ index ∈ indices, (expand attrib materials shape.materialIds index).isSome = true := by
  induction indices generalizing s corners with
  | nil => exact ⟨le_max_right _ _, fun _ h => absurd h List.not_mem_nil⟩
  | cons index indices ih =>
    rw [List.foldlM_cons] at hfold
    obtain ⟨s₁, hturn, hfold⟩ := Option.bind_eq_some_iff.mp hfold
    obtain ⟨vertex, hvertex, hadd⟩ := Option.bind_eq_some_iff.mp hturn
    have hroom : corners.length < n := by
      by_contra hfull
      rw [h.add_full (not_lt.mp hfull)] at hadd
      cases hadd
    obtain ⟨s₂, hadd', h₂⟩ := h.add hroom vertex
    cases hadd.symm.trans hadd'
    obtain ⟨hlength, hexpand⟩ := ih h₂ hfold
    rw [List.length_append, List.length_singleton] at hlength
    refine ⟨?_, fun other hother => ?_⟩
    · rw [List.length_cons]
      omega
    · rcases List.mem_cons.mp hother with rfl | hother
      · rw [hvertex, Option.isSome_some]
      · exact hexpand other hother

omit [EquivBEq F] [LawfulHashable F] [One F] [Sub F] in
theorem loaded_start (shape : Shape) : Loaded (shape.indices.length % 2 ^ 32) [] (Loop.start shape : Loop F) where
  count := rfl
  vertices_length := List.length_replicate
  indices_length := List.length_replicate
  map := fun _ => Std.HashMap.getElem?_empty
  represents := represents_nil

/-- The index buffer leads every corner to its vertex, and two corners to the same one exactly
if they are equal. -/
structure Deduplicates (buffers : Buffers F) (corners : List (Vertex F)) : Prop where
  vertex : ∀ (i : Nat) (corner : Vertex F), corners[i]? = some corner →
    ∃ (k : Nat) (vertex : Vertex F), buffers.indices[i]? = some k ∧ buffers.vertices[k]? = some vertex ∧
      (vertex == corner) = true
  index : ∀ (i j : Nat) (corner corner' : Vertex F), corners[i]? = some corner → corners[j]? = some corner' →
    (buffers.indices[i]? = buffers.indices[j]? ↔ (corner == corner') = true)

omit [LawfulHashable F] [Zero F] [One F] [Sub F] in
theorem Loaded.deduplicates (h : Loaded n corners s) : Deduplicates ⟨s.vertices, s.indices⟩ corners :=
  ⟨fun _ _ hi => h.represents.lookup hi, fun _ _ _ _ hi hj => h.represents.index_eq_iff hi hj⟩

theorem exists_map_some_iff {α β : Type} {f : α → Option β} {xs : List α} :
    (∃ ys : List β, xs.map f = ys.map some) ↔ ∀ x ∈ xs, (f x).isSome = true := by
  constructor
  · rintro ⟨ys, hys⟩ x hx
    obtain ⟨y, -, hy⟩ := List.mem_map.mp (hys ▸ List.mem_map_of_mem hx)
    rw [← hy, Option.isSome_some]
  · intro h
    refine ⟨xs.filterMap f, ?_⟩
    rw [List.map_filterMap_some_eq_filter_map_isSome, List.filter_eq_self.mpr]
    intro y hy
    obtain ⟨x, hx, rfl⟩ := List.mem_map.mp hy
    exact h x hx

end Shapes

/-- A triangle where only two corners have a texture coordinate. -/
def partlyMapped : Attributes ℤ × Shape :=
  (⟨[0, 0, 0, 1, 0, 0, 0, 1, 0], [], [0, 0]⟩, ⟨[⟨0, -1, -1⟩, ⟨1, -1, 0⟩, ⟨2, -1, 0⟩], [-1]⟩)

/-- A square of two triangles, which share two corners. -/
def square : Attributes ℤ × Shape :=
  (⟨[0, 0, 0, 1, 0, 0, 1, 1, 0, 0, 1, 0], [], []⟩,
    ⟨[⟨0, -1, -1⟩, ⟨1, -1, -1⟩, ⟨2, -1, -1⟩, ⟨0, -1, -1⟩, ⟨2, -1, -1⟩, ⟨3, -1, -1⟩], [-1]⟩)

end Lumos.Graphics.OBJ
