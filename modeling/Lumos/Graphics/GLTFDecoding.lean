import Mathlib.Tactic.Ring
import Mathlib.Tactic.Linarith
import Lumos.Graphics.GLTFMesh

/-!
# Which primitives are decoded

What the loops read is what the elements are where these are floats, or integers of two or
four bytes, without gaps between them, and all of them fit into vectors of the length the
index accessor has.
-/
namespace Lumos.Graphics.GLTFLoader

open Bytes Maths

variable {place : Vector3 Float32 → Vector3 Float32} {buffers : Nat → List UInt8}
  {accessor attr : Accessor} {data : List UInt8} {kind kind' : Kind} {vertices vertices' : List Vertex}
  {i k n p size start width : Nat} {name : String}

/-! ## Lengths -/

theorem componentLength_pos (type : AccessorType) : 0 < type.componentLength := by
  cases type <;> decide

theorem byteSize_pos (type : ComponentType) : 0 < type.byteSize := by
  cases type <;> decide

theorem elementSize_pos (accessor : Accessor) : 0 < accessor.elementSize :=
  Nat.mul_pos (componentLength_pos _) (byteSize_pos _)

theorem intMul_eq_some {a b c : Int} : intMul a b = some c ↔ c = a * b ∧ -2 ^ 31 ≤ a * b ∧ a * b < 2 ^ 31 := by
  unfold intMul
  split
  · next h =>
    rw [Option.some.injEq, and_iff_left h]
    exact eq_comm
  · next h =>
    constructor
    · intro hsome
      cases hsome
    · rintro ⟨-, hbounds⟩
      exact absurd hbounds h

theorem intMul_natCast {a b : Nat} (h : a * b < 2 ^ 31) : intMul a b = some ((a * b : Nat) : Int) := by
  rw [intMul_eq_some, ← Int.natCast_mul]
  generalize a * b = n at h
  exact ⟨rfl, by omega, by omega⟩

theorem bmod_of_lt {m : Nat} (h : 2 * n < m) : Int.bmod n m = n := by
  apply Int.bmod_eq_of_le_mul_two <;> omega

/-- The bytes the accessor would take without gaps, where their number is an `int`. -/
theorem bufferLength_of_lt (h : accessor.count * accessor.elementSize < 2 ^ 31) :
    accessor.bufferLength = some (accessor.count * accessor.elementSize) := by
  have hlength := componentLength_pos accessor.type
  have hsize := byteSize_pos accessor.componentType
  rw [Accessor.elementSize, ← Nat.mul_assoc] at h ⊢
  have hproduct : accessor.count * accessor.type.componentLength < 2 ^ 31 :=
    Nat.lt_of_le_of_lt (Nat.le_mul_of_pos_right _ hsize) h
  have hcount : accessor.count < 2 ^ 31 := Nat.lt_of_le_of_lt (Nat.le_mul_of_pos_right _ hlength) hproduct
  have hbmod : Int.bmod accessor.count (2 ^ 32) = accessor.count := bmod_of_lt (by omega)
  unfold Accessor.bufferLength
  rw [hbmod, intMul_natCast hproduct, Option.bind_eq_bind, Option.bind_some, intMul_natCast h, Option.bind_some]
  exact if_pos (Int.natCast_nonneg _)

theorem bufferLength_eq_some (h : accessor.bufferLength = some n) :
    n < 2 ^ 31 ∧ (accessor.count < 2 ^ 31 → n = accessor.count * accessor.elementSize) := by
  simp only [Accessor.bufferLength, Option.bind_eq_bind, Option.bind_eq_some_iff, Option.ite_none_right_eq_some,
    Option.some.injEq] at h
  obtain ⟨a, ha, b, hb, -, rfl⟩ := h
  obtain ⟨hfirst, -, -⟩ := intMul_eq_some.mp ha
  obtain ⟨hvalue, -, hlt⟩ := intMul_eq_some.mp hb
  rw [← hvalue] at hlt
  constructor
  · omega
  · intro hcount
    have hbmod : Int.bmod accessor.count (2 ^ 32) = accessor.count := bmod_of_lt (by omega)
    have hproduct : b = ((accessor.count * accessor.elementSize : Nat) : Int) := by
      rw [hvalue, hfirst, hbmod, Accessor.elementSize]
      push_cast
      ring
    rw [hproduct, Int.toNat_natCast]

/-- Who finds all elements in the bytes has no overflow. -/
theorem size_lt_of_reads (h : accessor.bufferLength = some n) (hsize : 0 < size)
    (hreads : size * accessor.count ≤ n) : n = accessor.count * accessor.elementSize ∧ n < 2 ^ 31 := by
  obtain ⟨hlt, hvalue⟩ := bufferLength_eq_some h
  have hcount : accessor.count ≤ size * accessor.count := Nat.le_mul_of_pos_left _ hsize
  exact ⟨hvalue (by omega), hlt⟩

theorem data_eq_some (h : accessor.data buffers = some data) : ∃ length, accessor.bufferLength = some length ∧
    data = slice (buffers accessor.bufferView.buffer) accessor.bufferOffset length ∧ data.length = length := by
  simp only [Accessor.data, Option.bind_eq_bind, Option.bind_eq_some_iff] at h
  obtain ⟨length, hlength, hdata⟩ := h
  split at hdata
  · next hinside =>
    cases hdata
    exact ⟨length, hlength, rfl, length_slice hinside⟩
  · cases hdata

theorem le_inside (h : accessor.Valid n) : accessor.bufferOffset + accessor.count * accessor.elementSize ≤ n := by
  obtain ⟨count, hcount⟩ := Nat.exists_eq_succ_of_ne_zero (Nat.pos_iff_ne_zero.mp h.count)
  have hinside := h.inside
  have hgaps : count * accessor.elementSize ≤ count * accessor.stride := Nat.mul_le_mul_left _ h.wide
  rw [hcount, Nat.succ_sub_one] at hinside
  rw [hcount, Nat.succ_mul]
  omega

theorem data_of_lt (h : accessor.Valid (buffers accessor.bufferView.buffer).length)
    (hlength : accessor.bufferLength = some n) (hle : n ≤ accessor.count * accessor.elementSize) :
    accessor.data buffers = some (slice (buffers accessor.bufferView.buffer) accessor.bufferOffset n) := by
  have hinside := le_inside h
  simp only [Accessor.data, hlength, Option.bind_eq_bind, Option.bind_some]
  rw [if_pos (by omega)]

/-! ## The vertices -/

section Fields

variable (v : Vertex) (fs : List Float32)

theorem store_position (h : kind ≠ .position) : (v.store place kind fs).position = v.position := by
  unfold Vertex.store
  split <;> first | rfl | contradiction

theorem store_normal (h : kind ≠ .normal) : (v.store place kind fs).normal = v.normal := by
  unfold Vertex.store
  split <;> first | rfl | contradiction

theorem store_texCoords (h : kind ≠ .texCoords) : (v.store place kind fs).texCoords = v.texCoords := by
  unfold Vertex.store
  split <;> first | rfl | contradiction

theorem store_colours (h : kind ≠ .colours) : (v.store place kind fs).colours = v.colours := by
  unfold Vertex.store
  split <;> first | rfl | contradiction

theorem store_tangent (h : kind ≠ .tangent) : (v.store place kind fs).tangent = v.tangent := by
  unfold Vertex.store
  split <;> first | rfl | contradiction

/-- What has been stored stays when another attribute is. -/
theorem has_store_other (h : kind' ≠ kind) {gs : List Float32} (hhas : v.Has place kind gs) :
    (v.store place kind' fs).Has place kind gs := by
  unfold Vertex.Has at hhas ⊢
  split at hhas
  · rw [store_position v fs h]
    exact hhas
  · rw [store_normal v fs h]
    exact hhas
  · rw [store_texCoords v fs h]
    exact hhas
  · rw [store_colours v fs h]
    exact hhas
  · rw [store_colours v fs h]
    exact hhas
  · rw [store_tangent v fs h]
    exact hhas
  · exact hhas.elim

/-- The value of an attribute of a vertex. -/
theorem has_store_same (start : Nat) :
    (v.store place kind (floatsAt data start kind.width)).Has place kind (floatsAt data start kind.width) := by
  cases kind <;> rfl

end Fields

/-- What comes after the components of a vertex does not matter; a colour has no more. -/
theorem has_append {v : Vertex} {fs gs : List Float32} (h : v.Has place kind fs)
    (hgs : kind = .colours → gs = []) : v.Has place kind (fs ++ gs) := by
  by_cases hkind : kind = .colours
  · rw [hgs hkind, List.append_nil]
    exact h
  · unfold Vertex.Has at h
    split at h
    · exact h
    · exact h
    · exact h
    · contradiction
    · contradiction
    · exact h
    · exact h.elim

theorem has_head {v : Vertex} {x y : Float32} {fs gs : List Float32} (h : v.Has id kind (x :: fs))
    (h' : v.Has id kind (y :: gs)) : x = y := by
  unfold Vertex.Has at h h'
  split at h <;> split at h' <;> simp_all

theorem length_storeElements (h : storeElements place data kind p vertices = some vertices') :
    vertices'.length = vertices.length := by
  induction p generalizing vertices' with
  | zero =>
    cases h
    rfl
  | succ p ih =>
    simp only [storeElements, Option.bind_eq_bind, Option.bind_eq_some_iff] at h
    obtain ⟨vs, hvs, hstep⟩ := h
    split at hstep
    · cases hstep
      rw [List.length_modify, ih hvs]
    · cases hstep

/-- What the loop over the elements leaves, and that it stays in bounds. -/
theorem storeElements_spec (h : storeElements place data kind p vertices = some vertices') :
    (0 < p → 4 * kind.width * p ≤ data.length ∧ p ≤ vertices.length) ∧
      ∀ i v, vertices[i]? = some v → vertices'[i]? =
        some (if i < p then v.store place kind (floatsAt data (4 * kind.width * i) kind.width) else v) := by
  induction p generalizing vertices' with
  | zero =>
    cases h
    exact ⟨fun h => absurd h (Nat.lt_irrefl 0), fun i v hv => by rw [hv, if_neg (Nat.not_lt_zero i)]⟩
  | succ p ih =>
    simp only [storeElements, Option.bind_eq_bind, Option.bind_eq_some_iff] at h
    obtain ⟨vs, hvs, hstep⟩ := h
    split at hstep
    · next hbounds =>
      cases hstep
      obtain ⟨-, hbefore⟩ := ih hvs
      rw [length_storeElements hvs] at hbounds
      refine ⟨fun _ => ⟨?_, hbounds.2⟩, ?_⟩
      · rw [Nat.mul_succ]
        exact hbounds.1
      · intro i v hv
        rw [List.getElem?_modify, hbefore i v hv]
        by_cases hip : p = i
        · subst hip
          simp
        · have hlt : i < p + 1 ↔ i < p := by omega
          simp [hip, hlt]
    · cases hstep

variable (place) in
theorem exists_storeElements (hdata : 4 * kind.width * p ≤ data.length) (hp : p ≤ vertices.length) :
    ∃ vertices', storeElements place data kind p vertices = some vertices' := by
  induction p with
  | zero => exact ⟨vertices, rfl⟩
  | succ p ih =>
    rw [Nat.mul_succ] at hdata
    obtain ⟨vs, hvs⟩ := ih (by omega) (by omega)
    have hbounds : 4 * kind.width * p + 4 * kind.width ≤ data.length ∧ p < vs.length := by
      rw [length_storeElements hvs]
      exact ⟨hdata, hp⟩
    exact ⟨_, by simp only [storeElements, hvs, Option.bind_eq_bind, Option.bind_some, if_pos hbounds]; rfl⟩

/-! ## The attributes -/

theorem ofName_injective {a b : String} (ha : Kind.ofName a = some kind) (hb : Kind.ofName b = some kind) :
    a = b := by
  unfold Kind.ofName at ha hb
  split_ifs at ha hb <;> cases ha <;> cases hb <;> simp_all

variable {attributes : List (String × Accessor)}

/-- One attribute. -/
theorem loadAttributes_cons
    (h : loadAttributes place buffers ((name, attr) :: attributes) vertices = some vertices') :
    ∃ data vs, attr.data buffers = some data ∧ loadAttributes place buffers attributes vs = some vertices' ∧
      (∀ kind, Kind.ofName name = some kind → storeElements place data kind attr.count vertices = some vs) ∧
      (Kind.ofName name = none → vs = vertices) := by
  cases hkind : Kind.ofName name with
  | none =>
    simp only [loadAttributes, hkind, Option.bind_eq_bind, Option.bind_eq_some_iff, Option.some.injEq] at h
    obtain ⟨data, hdata, vs, rfl, hrest⟩ := h
    exact ⟨data, vertices, hdata, hrest, fun _ h => absurd h (Option.some_ne_none _).symm, fun _ => rfl⟩
  | some kind =>
    simp only [loadAttributes, hkind, Option.bind_eq_bind, Option.bind_eq_some_iff] at h
    obtain ⟨data, hdata, vs, hvs, hrest⟩ := h
    exact ⟨data, vs, hdata, hrest, fun _ h => Option.some.inj h ▸ hvs, fun h => absurd h (Option.some_ne_none _)⟩

/-- A value stays as long as the other attributes are of other kinds. -/
theorem has_loadAttributes (h : loadAttributes place buffers attributes vertices = some vertices')
    (hother : ∀ name ∈ attributes.map Prod.fst, Kind.ofName name ≠ some kind) {v : Vertex} {fs : List Float32}
    (hv : vertices[i]? = some v) (hhas : v.Has place kind fs) :
    ∃ v', vertices'[i]? = some v' ∧ v'.Has place kind fs := by
  induction attributes generalizing vertices v with
  | nil =>
    cases h
    exact ⟨v, hv, hhas⟩
  | cons entry attributes ih =>
    obtain ⟨name, attr⟩ := entry
    obtain ⟨data, vs, -, hrest, hsome, hnone⟩ := loadAttributes_cons h
    have hother' : ∀ name ∈ attributes.map Prod.fst, Kind.ofName name ≠ some kind := fun name hname =>
      hother name (List.mem_cons_of_mem _ hname)
    cases hkind : Kind.ofName name with
    | none =>
      rw [hnone hkind] at hrest
      exact ih hrest hother' hv hhas
    | some kind' =>
      have hne : kind' ≠ kind := fun heq => hother name List.mem_cons_self (heq ▸ hkind)
      have hstored := (storeElements_spec (hsome kind' hkind)).2 i v hv
      refine ih hrest hother' hstored ?_
      split
      · exact has_store_other v _ hne hhas
      · exact hhas

/-- What the loop over the attributes leaves, and that it stays in bounds. -/
theorem loadAttributes_spec (hnames : (attributes.map Prod.fst).Nodup)
    (h : loadAttributes place buffers attributes vertices = some vertices') (hmem : (name, attr) ∈ attributes) :
    ∃ data, attr.data buffers = some data ∧ ∀ kind, Kind.ofName name = some kind →
      (0 < attr.count → 4 * kind.width * attr.count ≤ data.length ∧ attr.count ≤ vertices.length) ∧
      ∀ i < attr.count, ∃ v, vertices'[i]? = some v ∧
        v.Has place kind (floatsAt data (4 * kind.width * i) kind.width) := by
  induction attributes generalizing vertices with
  | nil => cases hmem
  | cons entry attributes ih =>
    obtain ⟨name', attr'⟩ := entry
    rw [List.map_cons, List.nodup_cons] at hnames
    obtain ⟨data, vs, hdata, hrest, hsome, hnone⟩ := loadAttributes_cons h
    cases List.mem_cons.mp hmem with
    | inl heq =>
      cases heq
      refine ⟨data, hdata, fun kind hkind => ?_⟩
      obtain ⟨hbounds, hstored⟩ := storeElements_spec (hsome kind hkind)
      refine ⟨hbounds, fun i hi => ?_⟩
      have hlength := (hbounds (Nat.zero_lt_of_lt hi)).2
      have hother : ∀ name' ∈ attributes.map Prod.fst, Kind.ofName name' ≠ some kind := fun name' hname' heq =>
        hnames.1 (ofName_injective hkind heq ▸ hname')
      have hv := hstored i _ (List.getElem?_eq_getElem (by omega))
      rw [if_pos hi] at hv
      exact has_loadAttributes hrest hother hv (has_store_same _ _)
    | inr hin =>
      obtain ⟨data', hdata', hspec⟩ := ih hnames.2 hrest hin
      refine ⟨data', hdata', fun kind hkind => ?_⟩
      have hlength : vs.length = vertices.length := by
        cases hkind' : Kind.ofName name' with
        | none => rw [hnone hkind']
        | some kind' => exact length_storeElements (hsome kind' hkind')
      rw [← hlength]
      exact hspec kind hkind

variable (place) in
theorem exists_loadAttributes (h : ∀ name attr, (name, attr) ∈ attributes → ∃ data, attr.data buffers = some data ∧
      ∀ kind, Kind.ofName name = some kind →
        4 * kind.width * attr.count ≤ data.length ∧ attr.count ≤ vertices.length) :
    ∃ vertices', loadAttributes place buffers attributes vertices = some vertices' := by
  induction attributes generalizing vertices with
  | nil => exact ⟨vertices, rfl⟩
  | cons entry attributes ih =>
    obtain ⟨name, attr⟩ := entry
    obtain ⟨data, hdata, hkinds⟩ := h name attr List.mem_cons_self
    have hrest : ∀ vs : List Vertex, vs.length = vertices.length →
        ∃ vertices', loadAttributes place buffers attributes vs = some vertices' := fun vs hlength =>
      ih fun name' attr' hmem => hlength ▸ h name' attr' (List.mem_cons_of_mem _ hmem)
    cases hkind : Kind.ofName name with
    | none =>
      obtain ⟨vertices', hvertices⟩ := hrest vertices rfl
      exact ⟨vertices', by
        simp only [loadAttributes, hdata, hkind, Option.bind_eq_bind, Option.bind_some, hvertices]⟩
    | some kind =>
      obtain ⟨hread, hcount⟩ := hkinds kind hkind
      obtain ⟨vs, hvs⟩ := exists_storeElements place hread hcount
      obtain ⟨vertices', hvertices⟩ := hrest vs (length_storeElements hvs)
      exact ⟨vertices', by
        simp only [loadAttributes, hdata, hkind, hvs, Option.bind_eq_bind, Option.bind_some, hvertices]⟩

end Lumos.Graphics.GLTFLoader
