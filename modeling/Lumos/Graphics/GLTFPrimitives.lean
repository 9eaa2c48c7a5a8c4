import Lumos.Graphics.GLTFDecoding

/-!
# The layout the loader expects

A primitive is decoded for all contents of its buffers just when its accessors are laid out as
the loader takes for granted. For another layout, a one at the place of an element that the
loader does not look at shows the difference.
-/
namespace Lumos.Graphics.GLTFLoader

open Bytes Maths

variable {place : Vector3 Float32 → Vector3 Float32} {normalised : ComponentType → Nat → Float32}
  {buffers : Nat → List UInt8} {lengths : Nat → Nat} {primitive : Primitive}
  {accessor attr : Accessor} {data : List UInt8} {indices indices' : List Nat} {kind : Kind}
  {i k n size : Nat} {name : String}

/-! ## The indices -/

theorem length_loadIndices (h : loadIndices data size k indices = some indices') :
    indices'.length = indices.length := by
  induction k generalizing indices' with
  | zero =>
    cases h
    rfl
  | succ k ih =>
    simp only [loadIndices, Option.bind_eq_bind, Option.bind_eq_some_iff, Option.ite_none_right_eq_some,
      Option.some.injEq] at h
    obtain ⟨before, hbefore, -, rfl⟩ := h
    rw [List.length_set, ih hbefore]

/-- What the loop over the indices leaves, and that it stays in bounds. -/
theorem loadIndices_spec (h : loadIndices data size k indices = some indices') :
    size * k ≤ data.length ∧ ∀ j < k, indices'[j]? = some (littleEndian (slice data (size * j) size)) := by
  induction k generalizing indices' with
  | zero => exact ⟨Nat.zero_le _, fun j hj => absurd hj (Nat.not_lt_zero j)⟩
  | succ k ih =>
    simp only [loadIndices, Option.bind_eq_bind, Option.bind_eq_some_iff, Option.ite_none_right_eq_some,
      Option.some.injEq] at h
    obtain ⟨before, hbefore, ⟨hread, hwrite⟩, rfl⟩ := h
    obtain ⟨-, hset⟩ := ih hbefore
    constructor
    · rw [Nat.mul_succ]
      exact hread
    · intro j hj
      by_cases hjk : k = j
      · subst hjk
        rw [List.getElem?_set_self hwrite]
      · rw [List.getElem?_set_ne hjk, hset j (by omega)]

variable (indices) in
theorem exists_loadIndices (hdata : size * k ≤ data.length) (hk : k ≤ indices.length) :
    ∃ indices', loadIndices data size k indices = some indices' := by
  induction k with
  | zero => exact ⟨indices, rfl⟩
  | succ k ih =>
    rw [Nat.mul_succ] at hdata
    obtain ⟨before, hbefore⟩ := ih (by omega) (by omega)
    have hbounds : size * k + size ≤ data.length ∧ k < before.length := by
      rw [length_loadIndices hbefore]
      exact ⟨hdata, hk⟩
    exact ⟨_, by simp only [loadIndices, hbefore, Option.bind_eq_bind, Option.bind_some, if_pos hbounds]; rfl⟩

/-! ## The elements of a packed accessor -/

theorem mul_stride (h : accessor.Packed size) (hi : i < accessor.count) : i * accessor.stride = size * i := by
  obtain hone | hstride := h
  · have hzero : i = 0 := by omega
    rw [hzero, Nat.zero_mul, Nat.mul_zero]
  · rw [hstride, Nat.mul_comm]

theorem length_of_indexType (h : IndexType accessor) : accessor.type.componentLength = 1 := by
  rw [h.1]
  rfl

theorem size_of_indexType (h : IndexType accessor) (htype : accessor.componentType ≠ .unsignedByte) :
    accessor.componentType.byteSize = 2 ∨ accessor.componentType.byteSize = 4 := by
  obtain ⟨-, h | h | h⟩ := h
  · exact absurd h htype
  · exact .inl (by rw [h]; rfl)
  · exact .inr (by rw [h]; rfl)

theorem index_eq (hpacked : accessor.Packed accessor.componentType.byteSize) (hk : k < accessor.count)
    (hn : accessor.componentType.byteSize * accessor.count ≤ n) :
    slice (slice (buffers accessor.bufferView.buffer) accessor.bufferOffset n)
        (accessor.componentType.byteSize * k) accessor.componentType.byteSize =
      accessor.component buffers k 0 := by
  have hinside : accessor.componentType.byteSize * (k + 1) ≤ n := (Nat.mul_le_mul_left _ hk).trans hn
  rw [slice_slice (by rwa [Nat.mul_succ] at hinside), Accessor.component, mul_stride hpacked hk, Nat.zero_mul,
    Nat.add_zero]

variable (buffers normalised) in
/-- The floats the loader reads are the first components of the element. -/
theorem element_eq (h : attr.PackedAs kind) (hi : i < attr.count) (hn : 4 * kind.width * attr.count ≤ n) :
    ∃ rest, rest.length = attr.type.componentLength - kind.width ∧ attr.element buffers normalised i =
      floatsAt (slice (buffers attr.bufferView.buffer) attr.bufferOffset n) (4 * kind.width * i) kind.width ++
        rest := by
  have hinside : 4 * kind.width * (i + 1) ≤ n := (Nat.mul_le_mul_left _ hi).trans hn
  rw [Nat.mul_succ] at hinside
  have hsize : attr.componentType.byteSize = 4 := by rw [h.floats]; rfl
  have hfirst : (attr.element buffers normalised i).take kind.width =
      floatsAt (slice (buffers attr.bufferView.buffer) attr.bufferOffset n) (4 * kind.width * i) kind.width := by
    rw [Accessor.element, ← List.map_take, List.take_range, Nat.min_eq_left h.wide]
    apply List.map_congr_left
    intro c hc
    rw [List.mem_range] at hc
    rw [if_pos h.floats, floatAt, slice_slice (by omega), Accessor.component, mul_stride h.packed hi, hsize,
      Nat.mul_comm c 4, Nat.add_assoc]
  refine ⟨(attr.element buffers normalised i).drop kind.width, ?_, by rw [← hfirst, List.take_append_drop]⟩
  rw [List.length_drop, Accessor.element, List.length_map, List.length_range]

/-! ## The primitives that are decoded -/

theorem length_le_of_colours (h : AttributeType attr .colours) : attr.type.componentLength ≤ 4 := by
  obtain ⟨h | h, -⟩ := h
  · rw [h]
    decide
  · rw [h]
    decide

/-- The floats that are stored are the value of the element. -/
theorem has_element {v : Vertex} (htype : AttributeType attr kind) (h : attr.PackedAs kind) (hi : i < attr.count)
    (hn : 4 * kind.width * attr.count ≤ n)
    (hhas : v.Has place kind (floatsAt (slice (buffers attr.bufferView.buffer) attr.bufferOffset n)
      (4 * kind.width * i) kind.width)) : v.Has place kind (attr.element buffers normalised i) := by
  obtain ⟨rest, hlength, helement⟩ := element_eq normalised buffers h hi hn
  rw [helement]
  apply has_append hhas
  rintro rfl
  have hfour := length_le_of_colours htype
  have hwidth : Kind.colours.width = 4 := rfl
  exact List.eq_nil_of_length_eq_zero (by omega)

/-- The data of an attribute, whether or not it is one the loader looks for. -/
theorem exists_data (hvalid : attr.Valid (buffers attr.bufferView.buffer).length) (h : attr.bufferLength ≠ none) :
    ∃ data, attr.data buffers = some data := by
  obtain ⟨n, hn⟩ := Option.ne_none_iff_exists'.mp h
  obtain ⟨hlt, hvalue⟩ := bufferLength_eq_some hn
  have hcount : attr.count ≤ attr.count * attr.elementSize := Nat.le_mul_of_pos_right _ (elementSize_pos attr)
  have hle : n ≤ attr.count * attr.elementSize := by
    by_cases hsmall : attr.count < 2 ^ 31
    · exact (hvalue hsmall).le
    · omega
  exact ⟨_, data_of_lt hvalid hn hle⟩

theorem wide_le (h : attr.PackedAs kind) : 4 * kind.width * attr.count ≤ attr.count * attr.elementSize := by
  have hsize : attr.componentType.byteSize = 4 := by rw [h.floats]; rfl
  rw [Accessor.elementSize, hsize, Nat.mul_comm, Nat.mul_comm 4]
  exact Nat.mul_le_mul_left _ (Nat.mul_le_mul_right _ h.wide)

/-- A layout as expected is decoded. -/
theorem decodes_of_expected (hvalid : primitive.Valid lengths) (hlengths : ∀ b, (buffers b).length = lengths b)
    (h : primitive.Expected accessor) : Decodes place buffers normalised primitive := by
  have hinside : ∀ attr : Accessor, attr.Valid (lengths attr.bufferView.buffer) →
      attr.Valid (buffers attr.bufferView.buffer).length := fun attr h => (hlengths _).symm ▸ h
  obtain ⟨hvalidIndices, hindexType⟩ := hvalid.indices accessor h.indices
  have hreads : accessor.componentType.byteSize * accessor.count ≤ accessor.count * accessor.elementSize := by
    rw [Accessor.elementSize, length_of_indexType hindexType, Nat.one_mul, Nat.mul_comm]
  have hdata := data_of_lt (hinside accessor hvalidIndices) (bufferLength_of_lt h.size) (Nat.le_refl _)
  obtain ⟨length, hlength, -, hdataLength⟩ := data_eq_some hdata
  rw [bufferLength_of_lt h.size, Option.some.injEq] at hlength
  obtain ⟨vertices, hvertices⟩ : ∃ vertices, loadAttributes place buffers primitive.attributes
      (List.replicate accessor.count .zero) = some vertices := exists_loadAttributes place
    fun name attr hmem => by
      obtain ⟨data, hdata⟩ := exists_data (hinside attr (hvalid.attributes name attr hmem)) (h.lengths name attr hmem)
      refine ⟨data, hdata, fun kind hkind => ?_⟩
      obtain ⟨hcount, hsize, hpacked⟩ := h.attributes name attr kind hmem hkind
      obtain ⟨n, hn, -, hlength⟩ := data_eq_some hdata
      rw [bufferLength_of_lt hsize, Option.some.injEq] at hn
      rw [hlength, ← hn, List.length_replicate]
      exact ⟨wide_le hpacked, hcount⟩
  obtain ⟨indices, hindices⟩ := exists_loadIndices (List.replicate accessor.count 0)
    (hreads.trans (hlength.trans hdataLength.symm).le) (List.length_replicate ..).ge
  refine ⟨accessor, indices, vertices, h.indices, ?_, ?_, ?_⟩
  · simp only [loadMesh, h.indices, hvertices, hdata, Option.bind_eq_bind, Option.bind_some,
      if_pos (size_of_indexType hindexType h.type), hindices]
  · intro k hk
    rw [(loadIndices_spec hindices).2 k hk, index_eq h.packed hk hreads]
  · intro name attr kind hmem hkind i hi
    obtain ⟨data, hdata, hspec⟩ := loadAttributes_spec hvalid.names hvertices hmem
    obtain ⟨hcount, hsize, hpacked⟩ := h.attributes name attr kind hmem hkind
    obtain ⟨n, hn, rfl, -⟩ := data_eq_some hdata
    rw [bufferLength_of_lt hsize, Option.some.injEq] at hn
    subst hn
    obtain ⟨v, hv, hhas⟩ := (hspec kind hkind).2 i hi
    exact ⟨v, hv, has_element (hvalid.types name attr kind hmem hkind) hpacked hi (wide_le hpacked) hhas⟩

/-! ## No other layout is -/

/-- Buffers with a one at `position`, and zeros. -/
def spikes (lengths : Nat → Nat) (position : Nat) : Nat → List UInt8 := fun b => spike (lengths b) position

theorem loadMesh_eq_some {vertices : List Vertex} (hindices : primitive.indices = some accessor)
    (h : loadMesh place buffers primitive = some (indices, vertices)) :
    ∃ data, accessor.data buffers = some data ∧
      loadAttributes place buffers primitive.attributes (List.replicate accessor.count Vertex.zero) = some vertices ∧
      (if accessor.componentType.byteSize = 2 ∨ accessor.componentType.byteSize = 4 then
        loadIndices data accessor.componentType.byteSize accessor.count (List.replicate accessor.count 0)
      else some (List.replicate accessor.count 0)) = some indices := by
  simp only [loadMesh, hindices, Option.bind_eq_bind, Option.bind_some, Option.bind_eq_some_iff] at h
  obtain ⟨vs, hvertices, data, hdata, h⟩ := h
  split at h
  · next hsize =>
    obtain ⟨is, hloop, heq⟩ := Option.bind_eq_some_iff.mp h
    cases heq
    exact ⟨data, hdata, hvertices, by rw [if_pos hsize, hloop]⟩
  · next hsize =>
    cases h
    exact ⟨data, hdata, hvertices, by rw [if_neg hsize]⟩

/-- The first byte of an element that is not the first. -/
theorem second_lt (h : accessor.Valid n) (hcount : accessor.count ≠ 1) :
    1 < accessor.count ∧ accessor.bufferOffset + accessor.stride + accessor.elementSize ≤ n := by
  have hpos := h.count
  have hinside := h.inside
  have hstride : accessor.stride ≤ (accessor.count - 1) * accessor.stride := Nat.le_mul_of_pos_left _ (by omega)
  exact ⟨by omega, by omega⟩

/-- Between elements further apart than expected there is room for one more component. -/
theorem gap_of_ne (h : accessor.Valid n) (hwide : size ≤ accessor.elementSize)
    (hdvd : accessor.componentType.byteSize ∣ size) (hstride : accessor.stride ≠ size) :
    size + accessor.componentType.byteSize ≤ accessor.stride := by
  obtain ⟨a, rfl⟩ := hdvd
  obtain ⟨b, hb⟩ := h.aligned
  have hle := hwide.trans h.wide
  rw [hb] at hle hstride ⊢
  have hlt : a < b := by
    refine lt_of_le_of_ne (Nat.le_of_mul_le_mul_left hle (byteSize_pos _)) ?_
    rintro rfl
    exact hstride rfl
  rw [← Nat.mul_succ]
  exact Nat.mul_le_mul_left _ hlt

/-- Decoded indices are of two or four bytes, without gaps. -/
theorem index_of_decodes (hvalid : accessor.Valid (lengths accessor.bufferView.buffer)) (htype : IndexType accessor)
    (hindices : primitive.indices = some accessor)
    (h : ∀ position, Decodes id (spikes lengths position) normalised primitive) :
    accessor.componentType ≠ .unsignedByte ∧ accessor.Packed accessor.componentType.byteSize ∧
      accessor.count * accessor.elementSize < 2 ^ 31 := by
  have hsize := byteSize_pos accessor.componentType
  have helement : accessor.elementSize = accessor.componentType.byteSize := by
    rw [Accessor.elementSize, length_of_indexType htype, Nat.one_mul]
  have hbytes : accessor.componentType ≠ .unsignedByte := by
    intro hbyte
    obtain ⟨accessor', indices, vertices, haccessor, hload, hdecoded, -⟩ := h accessor.bufferOffset
    obtain rfl : accessor = accessor' := Option.some.inj (hindices.symm.trans haccessor)
    obtain ⟨data, -, -, hloop⟩ := loadMesh_eq_some hindices hload
    rw [hbyte, if_neg (by decide), Option.some.injEq] at hloop
    have hfirst := hdecoded 0 hvalid.count
    have hinside := hvalid.inside
    rw [← hloop, List.getElem?_replicate, if_pos hvalid.count, Accessor.component, Nat.zero_mul, Nat.zero_mul,
      Nat.add_zero, spikes, littleEndian_spike_same hsize (by omega)] at hfirst
    exact absurd (Option.some.inj hfirst) (by decide)
  refine ⟨hbytes, ?_, ?_⟩
  · by_contra hpacked
    obtain ⟨hcount, hstride⟩ := not_or.mp hpacked
    obtain ⟨hone, hinside⟩ := second_lt hvalid hcount
    have hgap := gap_of_ne hvalid helement.ge (dvd_refl _) hstride
    obtain ⟨accessor', indices, vertices, haccessor, hload, hdecoded, -⟩ :=
      h (accessor.bufferOffset + accessor.stride)
    obtain rfl : accessor = accessor' := Option.some.inj (hindices.symm.trans haccessor)
    obtain ⟨data, hdata, -, hloop⟩ := loadMesh_eq_some hindices hload
    obtain ⟨n, -, rfl, hlength⟩ := data_eq_some hdata
    rw [if_pos (size_of_indexType htype hbytes)] at hloop
    obtain ⟨hread, hstored⟩ := loadIndices_spec hloop
    have hsecond : accessor.componentType.byteSize * 1 + accessor.componentType.byteSize ≤ n := by
      rw [← Nat.mul_succ, ← hlength]
      exact (Nat.mul_le_mul_left _ hone).trans hread
    have hvalue := hdecoded 1 hone
    rw [hstored 1 hone, slice_slice hsecond, Accessor.component, spikes, littleEndian_spike_other (.inr (by omega)),
      Nat.one_mul, Nat.zero_mul, Nat.add_zero, littleEndian_spike_same hsize (by omega)] at hvalue
    exact absurd (Option.some.inj hvalue) (by decide)
  · obtain ⟨accessor', indices, vertices, haccessor, hload, -, -⟩ := h 0
    obtain rfl : accessor = accessor' := Option.some.inj (hindices.symm.trans haccessor)
    obtain ⟨data, hdata, -, hloop⟩ := loadMesh_eq_some hindices hload
    obtain ⟨n, hn, -, hlength⟩ := data_eq_some hdata
    rw [if_pos (size_of_indexType htype hbytes)] at hloop
    obtain ⟨hread, -⟩ := loadIndices_spec hloop
    obtain ⟨rfl, hlt⟩ := size_lt_of_reads hn hsize (hlength ▸ hread)
    exact hlt

theorem width_pos (kind : Kind) : 0 < kind.width := by
  cases kind <;> decide

/-- Of the types the format allows for an attribute, the wide enough ones are floats. -/
theorem floats_of_wide (htype : AttributeType attr kind) (hwide : 4 * kind.width ≤ attr.elementSize) :
    attr.componentType = .float ∧ kind.width ≤ attr.type.componentLength := by
  unfold Accessor.elementSize at hwide
  cases kind with
  | position => exact ⟨htype.2, by rw [htype.1]; decide⟩
  | normal => exact ⟨htype.2, by rw [htype.1]; decide⟩
  | tangent => exact ⟨htype.2, by rw [htype.1]; decide⟩
  | texCoords =>
    obtain ⟨htype, hfloat | hbyte | hshort⟩ := htype
    · exact ⟨hfloat, by rw [htype]; decide⟩
    · rw [htype, hbyte] at hwide
      exact absurd hwide (by decide)
    · rw [htype, hshort] at hwide
      exact absurd hwide (by decide)
  | colours =>
    obtain ⟨htype | htype, hfloat | hbyte | hshort⟩ := htype
    · rw [htype, hfloat] at hwide
      exact absurd hwide (by decide)
    · rw [htype, hbyte] at hwide
      exact absurd hwide (by decide)
    · rw [htype, hshort] at hwide
      exact absurd hwide (by decide)
    · exact ⟨hfloat, by rw [htype]; decide⟩
    · rw [htype, hbyte] at hwide
      exact absurd hwide (by decide)
    · rw [htype, hshort] at hwide
      exact absurd hwide (by decide)

/-- The first components of a list of floats. -/
theorem floatsAt_eq_cons (bytes : List UInt8) (start : Nat) (kind : Kind) : ∃ rest,
    floatsAt bytes start kind.width = floatAt bytes start :: rest := by
  cases kind <;> exact ⟨_, rfl⟩

theorem element_eq_cons (buffers : Nat → List UInt8) (normalised : ComponentType → Nat → Float32) (i : Nat)
    (hfloats : attr.componentType = .float) : ∃ rest, attr.element buffers normalised i =
    UInt32.ofNat (littleEndian (attr.component buffers i 0)) :: rest := by
  obtain ⟨n, hn⟩ := Nat.exists_eq_succ_of_ne_zero (Nat.pos_iff_ne_zero.mp (componentLength_pos attr.type))
  rw [Accessor.element, hn, List.range_succ_eq_map, List.map_cons, if_pos hfloats]
  exact ⟨_, rfl⟩

/-- Decoded attributes are floats without gaps, no more of them than indices. -/
theorem attribute_of_decodes (hvalid : primitive.Valid lengths) (hindices : primitive.indices = some accessor)
    (hmem : (name, attr) ∈ primitive.attributes) (hkind : Kind.ofName name = some kind)
    (h : ∀ position, Decodes id (spikes lengths position) normalised primitive) :
    attr.count ≤ accessor.count ∧ attr.count * attr.elementSize < 2 ^ 31 ∧ attr.PackedAs kind := by
  have hattr := hvalid.attributes name attr hmem
  have hwidth := width_pos kind
  have hread : ∀ position, ∃ n, attr.bufferLength = some n ∧ 4 * kind.width * attr.count ≤ n ∧
      attr.count ≤ accessor.count ∧ ∀ i < attr.count, ∃ v : Vertex,
        v.Has id kind (floatsAt (slice (spike (lengths attr.bufferView.buffer) position) attr.bufferOffset n)
          (4 * kind.width * i) kind.width) ∧ v.Has id kind (attr.element (spikes lengths position) normalised i) := by
    intro position
    obtain ⟨accessor', indices, vertices, haccessor, hload, -, hdecoded⟩ := h position
    obtain rfl : accessor = accessor' := Option.some.inj (hindices.symm.trans haccessor)
    obtain ⟨-, -, hvertices, -⟩ := loadMesh_eq_some hindices hload
    obtain ⟨data, hdata, hspec⟩ := loadAttributes_spec hvalid.names hvertices hmem
    obtain ⟨n, hn, rfl, hlength⟩ := data_eq_some hdata
    obtain ⟨hbounds, hstored⟩ := hspec kind hkind
    rw [hlength, List.length_replicate] at hbounds
    obtain ⟨hinside, hcount⟩ := hbounds hattr.count
    refine ⟨n, hn, hinside, hcount, fun i hi => ?_⟩
    obtain ⟨v, hv, hhas⟩ := hstored i hi
    obtain ⟨v', hv', hhas'⟩ := hdecoded name attr kind hmem hkind i hi
    obtain rfl : v = v' := Option.some.inj (hv.symm.trans hv')
    exact ⟨v, hhas, hhas'⟩
  obtain ⟨n, hn, hinside, hcount, -⟩ := hread 0
  obtain ⟨rfl, hsize⟩ := size_lt_of_reads hn (Nat.mul_pos (by decide) hwidth) hinside
  have hwide : 4 * kind.width ≤ attr.elementSize := by
    rw [Nat.mul_comm attr.count] at hinside
    exact Nat.le_of_mul_le_mul_right hinside hattr.count
  obtain ⟨hfloats, hlong⟩ := floats_of_wide (hvalid.types name attr kind hmem hkind) hwide
  have hfour : attr.componentType.byteSize = 4 := by rw [hfloats]; rfl
  refine ⟨hcount, hsize, hfloats, hlong, ?_⟩
  by_contra hpacked
  obtain ⟨hmany, hstride⟩ := not_or.mp hpacked
  obtain ⟨hone, hsecond⟩ := second_lt hattr hmany
  have hgap := gap_of_ne hattr hwide (by rw [hfour]; exact Nat.dvd_mul_right 4 _) hstride
  obtain ⟨n, hn, hinside, -, hhas⟩ := hread (attr.bufferOffset + attr.stride)
  obtain ⟨v, hloaded, hexpected⟩ := hhas 1 hone
  obtain ⟨rest, hrest⟩ := floatsAt_eq_cons (slice (spike (lengths attr.bufferView.buffer)
    (attr.bufferOffset + attr.stride)) attr.bufferOffset n) (4 * kind.width * 1) kind
  obtain ⟨rest', hrest'⟩ := element_eq_cons (spikes lengths (attr.bufferOffset + attr.stride)) normalised 1 hfloats
  have hfit : 4 * kind.width * 1 + 4 ≤ n := by
    have htwo : 4 * kind.width * 2 ≤ n := (Nat.mul_le_mul_left _ hone).trans hinside
    omega
  rw [hrest] at hloaded
  rw [hrest'] at hexpected
  have hsame := has_head hloaded hexpected
  have helement := elementSize_pos attr
  rw [floatAt, slice_slice hfit, littleEndian_spike_other (.inr (by omega)), Accessor.component, spikes, Nat.one_mul,
    Nat.zero_mul, Nat.add_zero, littleEndian_spike_same (byteSize_pos _) (by omega)] at hsame
  exact absurd hsame (by decide)

/-- A primitive is decoded, whatever its buffers hold, just when its layout is as the loader expects. -/
theorem decodes_iff (hvalid : primitive.Valid lengths) :
    (∀ buffers, (∀ b, (buffers b).length = lengths b) →
      ∀ place normalised, Decodes place buffers normalised primitive) ↔
      ∃ accessor, primitive.Expected accessor := by
  constructor
  · intro h
    have hspikes : ∀ position, Decodes id (spikes lengths position) (fun _ _ => 0) primitive := fun position =>
      h (spikes lengths position) (fun b => length_spike (lengths b) position) id _
    obtain ⟨accessor, indices, vertices, hindices, hload, -⟩ := hspikes 0
    obtain ⟨hvalidIndices, hindexType⟩ := hvalid.indices accessor hindices
    obtain ⟨htype, hpacked, hsize⟩ := index_of_decodes hvalidIndices hindexType hindices hspikes
    obtain ⟨-, -, hvertices, -⟩ := loadMesh_eq_some hindices hload
    refine ⟨accessor, hindices, htype, hpacked, hsize, fun name attr hmem => ?_, fun name attr kind hmem hkind => ?_⟩
    · obtain ⟨data, hdata, -⟩ := loadAttributes_spec hvalid.names hvertices hmem
      obtain ⟨n, hn, -⟩ := data_eq_some hdata
      rw [hn]
      exact Option.some_ne_none n
    · exact attribute_of_decodes hvalid hindices hmem hkind hspikes
  · rintro ⟨accessor, h⟩ buffers hlengths place normalised
    exact decodes_of_expected hvalid hlengths h

/-- Three vertices and three indices in a buffer of 42 bytes. -/
def triangle : Primitive where
  attributes := [("POSITION", ⟨⟨0, 0, 0⟩, 0, .float, 3, .vec3⟩)]
  indices := some ⟨⟨0, 36, 0⟩, 0, .unsignedShort, 3, .scalar⟩

theorem triangle_valid : triangle.Valid fun _ => 42 where
  names := by decide
  attributes := by
    intro name accessor hmem
    cases List.mem_singleton.mp hmem
    exact ⟨by decide, by decide, by decide, by decide⟩
  types := by
    intro name accessor kind hmem hkind
    cases List.mem_singleton.mp hmem
    cases hkind
    exact ⟨rfl, rfl⟩
  indices := by
    intro accessor hsome
    cases hsome
    exact ⟨⟨by decide, by decide, by decide, by decide⟩, rfl, .inr (.inl rfl)⟩

theorem triangle_expected : triangle.Expected ⟨⟨0, 36, 0⟩, 0, .unsignedShort, 3, .scalar⟩ where
  indices := rfl
  type := by decide
  packed := .inr rfl
  size := by decide
  lengths := by
    intro name attr hmem
    cases List.mem_singleton.mp hmem
    rw [bufferLength_of_lt (by decide)]
    exact Option.some_ne_none _
  attributes := by
    intro name attr kind hmem hkind
    cases List.mem_singleton.mp hmem
    cases hkind
    exact ⟨by decide, by decide, rfl, by decide, .inr rfl⟩

theorem triangle_decodes : Decodes id (fun _ => List.replicate 42 1) (fun _ _ => 0) triangle :=
  (decodes_iff triangle_valid).mpr ⟨_, triangle_expected⟩ _ (fun _ => List.length_replicate ..) id _

/-- Four vertices, and the indices of one triangle. -/
def unusedVertex : Primitive where
  attributes := [("POSITION", ⟨⟨0, 0, 0⟩, 0, .float, 4, .vec3⟩)]
  indices := some ⟨⟨0, 48, 0⟩, 0, .unsignedShort, 3, .scalar⟩

/-- The fourth vertex is written beyond the end of the vector. -/
theorem unusedVertex_faults : (unusedVertex.Valid fun _ => 54) ∧ ¬Decodes id (fun _ => List.replicate 54 0)
    (fun _ _ => 0) unusedVertex := by
  constructor
  · constructor
    · decide
    · intro name accessor hmem
      cases List.mem_singleton.mp hmem
      exact ⟨by decide, by decide, by decide, by decide⟩
    · intro name accessor kind hmem hkind
      cases List.mem_singleton.mp hmem
      cases hkind
      exact ⟨rfl, rfl⟩
    · intro accessor hsome
      cases hsome
      exact ⟨⟨by decide, by decide, by decide, by decide⟩, rfl, .inr (.inl rfl)⟩
  · rintro ⟨accessor, indices, vertices, -, hload, -⟩
    have hnone : (loadMesh id (fun _ => List.replicate 54 0) unusedVertex).isNone = true := by decide +kernel
    rw [hload] at hnone
    cases hnone

end Lumos.Graphics.GLTFLoader
