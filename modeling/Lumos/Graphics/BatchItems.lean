import Mathlib.Data.Finset.Card
import Mathlib.Data.List.Nodup
import Lumos.Graphics.Renderer2D
import Lumos.Library.GreedyCut

/-!
# What a run of sprites and triangles makes of a batch

The texture table of a run and the vertices written for it depend on the run alone. An item
fits behind a run when neither the indices nor the texture slots are used up.
-/
namespace Lumos.Graphics.Batching

open Maths

variable {K T : Type}

/-- What `SubmitQueue` and `SubmitTriangles` hand over one by one. -/
inductive Item (K T : Type) where
  | sprite (command : RenderCommand2D K T)
  | triangle (info : TriangleInfo K)

namespace Item

def texture : Item K T → Option T
  | sprite command => command.renderable.texture
  | triangle _ => none

def indices : Item K T → Nat
  | sprite _ => 6
  | triangle _ => 3

def vertexCount : Item K T → Nat
  | sprite _ => 4
  | triangle _ => 3

theorem indices_pos (item : Item K T) : 0 < item.indices := by
  cases item <;> simp [indices]

end Item

def indices (run : List (Item K T)) : Nat := (run.map Item.indices).sum

def vertexCount (run : List (Item K T)) : Nat := (run.map Item.vertexCount).sum

@[simp] theorem indices_nil : indices ([] : List (Item K T)) = 0 := rfl

@[simp] theorem indices_append (run rest : List (Item K T)) : indices (run ++ rest) = indices run + indices rest := by
  simp [indices]

@[simp] theorem indices_singleton (a : Item K T) : indices [a] = a.indices := by simp [indices]

@[simp] theorem vertexCount_nil : vertexCount ([] : List (Item K T)) = 0 := rfl

@[simp] theorem vertexCount_append (run rest : List (Item K T)) :
    vertexCount (run ++ rest) = vertexCount run + vertexCount rest := by
  simp [vertexCount]

@[simp] theorem vertexCount_singleton (a : Item K T) : vertexCount [a] = a.vertexCount := by simp [vertexCount]

theorem indices_eq_zero_iff {run : List (Item K T)} : indices run = 0 ↔ run = [] := by
  cases run with
  | nil => simp
  | cons a run =>
    have hpos := a.indices_pos
    have hcons : indices (a :: run) = a.indices + indices run := by simp [indices]
    simp only [hcons, reduceCtorEq, iff_false]
    omega

theorem indices_of_forall {run : List (Item K T)} {k : Nat} (h : ∀ item ∈ run, item.indices = k) :
    indices run = k * run.length := by
  rw [indices, List.map_congr_left h]
  simp [Nat.mul_comm]

theorem vertexCount_of_forall {run : List (Item K T)} {k : Nat} (h : ∀ item ∈ run, item.vertexCount = k) :
    vertexCount run = k * run.length := by
  rw [vertexCount, List.map_congr_left h]
  simp [Nat.mul_comm]

/-! ## The texture table -/

section Table

variable [DecidableEq T]

def addTexture (table : List T) : Option T → List T
  | none => table
  | some texture => if texture ∈ table then table else table ++ [texture]

/-- The textures of a run, in the order they first appear. -/
def table (run : List (Item K T)) : List T := run.foldl (fun table item => addTexture table item.texture) []

@[simp] theorem table_nil : table ([] : List (Item K T)) = [] := rfl

@[simp] theorem table_snoc (run : List (Item K T)) (a : Item K T) :
    table (run ++ [a]) = addTexture (table run) a.texture := by
  simp [table]

theorem prefix_addTexture (table : List T) (texture : Option T) : table <+: addTexture table texture := by
  cases texture with
  | none => exact List.prefix_rfl
  | some texture =>
    by_cases h : texture ∈ table
    · simp [addTexture, h]
    · simp [addTexture, h]

theorem nodup_addTexture {table : List T} (h : table.Nodup) (texture : Option T) :
    (addTexture table texture).Nodup := by
  cases texture with
  | none => exact h
  | some texture =>
    by_cases hmem : texture ∈ table
    · simpa [addTexture, hmem] using h
    · have hnodup : (table ++ [texture]).Nodup := by
        rw [List.nodup_append]
        exact ⟨h, List.nodup_singleton _, fun a ha b hb hab => hmem (by
          rw [List.mem_singleton] at hb
          rwa [hab, hb] at ha)⟩
      simpa [addTexture, hmem] using hnodup

theorem nodup_table (run : List (Item K T)) : (table run).Nodup := by
  induction run using List.reverseRecOn with
  | nil => simp
  | append_singleton run a ih =>
    rw [table_snoc]
    exact nodup_addTexture ih _

theorem mem_addTexture {table : List T} {added : Option T} {texture : T} :
    texture ∈ addTexture table added ↔ texture ∈ table ∨ added = some texture := by
  cases added with
  | none => simp [addTexture]
  | some t =>
    by_cases h : t ∈ table
    · simp only [addTexture, h, if_true, Option.some.injEq]
      constructor
      · exact Or.inl
      · rintro (hmem | rfl)
        · exact hmem
        · exact h
    · simp [addTexture, h, eq_comm]

theorem mem_table {run : List (Item K T)} {texture : T} :
    texture ∈ table run ↔ texture ∈ run.filterMap Item.texture := by
  induction run using List.reverseRecOn with
  | nil => simp
  | append_singleton run a ih => rw [table_snoc, mem_addTexture, ih, List.filterMap_append, List.mem_append]; simp

/-- The number of different textures. -/
theorem length_table (run : List (Item K T)) : (table run).length = (run.filterMap Item.texture).toFinset.card := by
  rw [← List.toFinset_card_of_nodup (nodup_table run)]
  congr 1
  ext texture
  simp only [List.mem_toFinset]
  exact mem_table

theorem length_table_le_of_sublist {less run : List (Item K T)} (h : less.Sublist run) :
    (table less).length ≤ (table run).length := by
  rw [length_table, length_table]
  apply Finset.card_le_card
  intro texture hmem
  rw [List.mem_toFinset] at hmem ⊢
  exact (h.filterMap Item.texture).subset hmem

/-! ## Slots -/

/-- The number a sprite is written with. -/
def slot (table : List T) : Option T → Nat
  | none => 0
  | some texture => table.idxOf texture + 1

/-- The number names the texture in the table, or says that there is none. -/
def Names (table : List T) (slot : Nat) : Option T → Prop
  | none => slot = 0
  | some texture => ∃ k, slot = k + 1 ∧ table[k]? = some texture

theorem names_slot {table : List T} {texture : Option T} (h : ∀ t, texture = some t → t ∈ table) :
    Names table (slot table texture) texture := by
  cases texture with
  | none => rfl
  | some t => exact ⟨table.idxOf t, rfl, List.getElem?_idxOf (h t rfl)⟩

theorem slot_of_prefix {table longer : List T} (hbegins : table <+: longer) {texture : Option T}
    (h : ∀ t, texture = some t → t ∈ table) : slot longer texture = slot table texture := by
  cases texture with
  | none => rfl
  | some t =>
    obtain ⟨rest, rfl⟩ := hbegins
    rw [slot, slot, List.idxOf_append_of_mem (h t rfl)]

/-! ## Vertices -/

variable [FloatArithmetic K]

def Item.vertices (table : List T) : Item K T → List (VertexData K)
  | sprite command => quadVertices (slot table command.renderable.texture) command
  | triangle info => triangleVertices info

theorem Item.length_vertices (table : List T) (item : Item K T) : (item.vertices table).length = item.vertexCount := by
  cases item <;> rfl

theorem Item.vertices_of_prefix {table longer : List T} (hbegins : table <+: longer) {item : Item K T}
    (h : ∀ t, item.texture = some t → t ∈ table) : item.vertices longer = item.vertices table := by
  cases item with
  | sprite command =>
    have hslot : slot longer command.renderable.texture = slot table command.renderable.texture :=
      slot_of_prefix hbegins h
    rw [vertices, vertices, hslot]
  | triangle info => rfl

def vertices (run : List (Item K T)) : List (VertexData K) := run.flatMap (Item.vertices (table run))

theorem length_vertices (run : List (Item K T)) : (vertices run).length = vertexCount run := by
  simp only [vertices, vertexCount, List.length_flatMap, Item.length_vertices]

/-- What has been written for a run stays right when the table grows. -/
theorem vertices_snoc (run : List (Item K T)) (a : Item K T) :
    vertices (run ++ [a]) = vertices run ++ a.vertices (table (run ++ [a])) := by
  have hrun : run.flatMap (Item.vertices (table (run ++ [a]))) = run.flatMap (Item.vertices (table run)) := by
    apply List.flatMap_congr
    intro item hitem
    apply Item.vertices_of_prefix
    · rw [table_snoc]
      exact prefix_addTexture _ _
    · intro t ht
      exact mem_table.mpr (List.mem_filterMap.mpr ⟨item, hitem, ht⟩)
  rw [vertices, List.flatMap_append, hrun, List.flatMap_singleton]
  rfl

end Table

/-! ## Fitting -/

section Fits

variable [DecidableEq T]

/-- Neither are the indices used up nor does the texture need a slot too many. -/
def Fits (run : List (Item K T)) (a : Item K T) : Prop :=
  indices run < limits.indiciesSize ∧ (table (run ++ [a])).length ≤ limits.maxTextures

instance (run : List (Item K T)) (a : Item K T) : Decidable (Fits run a) := inferInstanceAs (Decidable (_ ∧ _))

theorem fits_nil (a : Item K T) : Fits [] a := by
  have hroom : 0 < limits.indiciesSize := by decide
  have hlimit : 1 ≤ limits.maxTextures := by decide
  have hlength : (addTexture [] a.texture).length ≤ 1 := by
    cases a.texture <;> simp [addTexture]
  constructor
  · exact hroom
  · rw [table_snoc, table_nil]
    omega

theorem fitsBehindLess : GreedyCut.FitsBehindLess (Fits : List (Item K T) → Item K T → Prop) := by
  intro less run a hsuffix hfits
  obtain ⟨front, rfl⟩ := hsuffix
  constructor
  · have hindices := hfits.1
    rw [indices_append] at hindices
    omega
  · apply Nat.le_trans _ hfits.2
    apply length_table_le_of_sublist
    simp

/-- When every item has `k` indices and there are no more than that altogether, the indices are
never used up. -/
theorem packed_of_forall {run : List (Item K T)} {k : Nat} (hitems : ∀ item ∈ run, item.indices = k)
    (hindices : k * run.length ≤ limits.indiciesSize) (htextures : (table run).length ≤ limits.maxTextures) :
    GreedyCut.Packed Fits run := by
  intro before a hbegins
  have hmem : ∀ item ∈ before ++ [a], item.indices = k := fun item hitem => hitems item (hbegins.subset hitem)
  have hcount : indices before + a.indices = k * (before ++ [a]).length := by
    rw [← indices_of_forall hmem, indices_append, indices_singleton]
  have hle : k * (before ++ [a]).length ≤ k * run.length := Nat.mul_le_mul_left k hbegins.length_le
  have hpos := a.indices_pos
  constructor
  · omega
  · exact Nat.le_trans (length_table_le_of_sublist hbegins.sublist) htextures

end Fits

end Lumos.Graphics.Batching
