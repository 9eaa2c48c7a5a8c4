import Lumos.Graphics.BatchRuns
import Lumos.Maths.Matrix4

/-!
# Frames of `Renderer2D`, one after the other

Between two frames nothing is left to be drawn, and the set in use holds as many textures as
were last written. What a frame records depends on its items alone; what the sets hold at its
end depends on which batches follow each other.
-/
namespace Lumos.Graphics.Batching

open Maths Outcome

variable {K T : Type} [DecidableEq T] [FloatArithmetic K]

/-- The batches the items of a frame are drawn in. -/
def batches (items : List (Item K T)) : List (List (Item K T)) :=
  (GreedyCut.cut Fits items).filter fun run => !run.isEmpty

omit [FloatArithmetic K] in
theorem flatten_batches (items : List (Item K T)) : (batches items).flatten = items := by
  rw [batches, List.flatten_filter_not_isEmpty, GreedyCut.flatten_cut]

omit [FloatArithmetic K] in
theorem mem_cut_of_mem_batches {items run : List (Item K T)} (h : run ∈ batches items) :
    run ∈ GreedyCut.cut Fits items := List.mem_of_mem_filter h

/-- `BindDescriptorSets`, as it will be when the batches are executed. -/
def Renderer2D.SetsHeld (s : Renderer2D K T) : Prop :=
  ∀ batch ∈ s.recorded, batch.textures ≠ [] →
    ∃ set content, batch.descriptorSet = some set ∧ s.descriptorSets[set]? = some content ∧ batch.textures <+: content

/-! ## Plain items -/

/-- A sprite of no size, with this texture. -/
def plainCommand (texture : Nat) : RenderCommand2D ℚ Nat :=
  ⟨⟨⟨0, 0⟩, ⟨0, 0⟩, ⟨0, 0, 0, 0⟩, fun _ => ⟨0, 0⟩, some texture⟩, Matrix4.identity⟩

def plainSprite (texture : Nat) : Item ℚ Nat := .sprite (plainCommand texture)

def plainTriangle : Item ℚ Nat := .triangle ⟨⟨0, 0, 0⟩, ⟨0, 0, 0⟩, ⟨0, 0, 0⟩, ⟨0, 0, 0, 0⟩⟩

/-! ## Between frames -/

namespace Bindings

omit [DecidableEq T]

/-- Recording starts anew. -/
def cleared (b : Bindings T) : Bindings T := { b with bound := [] }

theorem Follows.cleared {b : Bindings T} {tables : List (List T)} (h : b.Follows tables) : b.cleared.Follows [] := by
  obtain ⟨content, hcontent, hlength, -⟩ := h.current
  constructor
  · rfl
  · exact ⟨content, hcontent, hlength, by simp⟩
  · simp [Bindings.cleared]
  · simp [Bindings.cleared]
  · simp [Bindings.cleared]

end Bindings

namespace Renderer2D

structure Idle (s : Renderer2D K T) : Prop where
  indexCount_eq : s.indexCount = 0
  batchDrawCallIndex_eq : s.batchDrawCallIndex = 0
  follows : s.bindings.cleared.Follows []

omit [DecidableEq T] [FloatArithmetic K] in
theorem idle_init : Idle (init : Renderer2D K T) where
  indexCount_eq := rfl
  batchDrawCallIndex_eq := rfl
  follows := by
    constructor
    · rfl
    · exact ⟨[], rfl, rfl, by simp⟩
    · simp [Bindings.cleared]
    · simp [Bindings.cleared]
    · simp [Bindings.cleared]

variable {s : Renderer2D K T}

omit [DecidableEq T] [FloatArithmetic K] in
theorem Idle.beginScene (h : Idle s) (commands : List (RenderCommand2D K T)) : Idle (s.beginScene commands) where
  indexCount_eq := h.indexCount_eq
  batchDrawCallIndex_eq := h.batchDrawCallIndex_eq
  follows := h.follows

/-! ## One frame -/

/-- What a frame leaves behind. -/
structure Drawn (start : Bindings T) (items : List (Item K T)) (s : Renderer2D K T) : Prop where
  idle : Idle s
  recorded_eq : s.recorded.map Batch.unbound = (batches items).mapIdx batchOf
  bindings_eq : s.bindings = ((batches items).map table).foldl Bindings.present start
  bound : ∀ batch ∈ s.recorded, batch.descriptorSet = none ↔ batch.textures = []

theorem Drawn.setsHeld_iff_held {start : Bindings T} {items : List (Item K T)} (h : Drawn start items s) :
    s.SetsHeld ↔ s.bindings.Held := by
  have hmem : ∀ binding, binding ∈ s.bindings.bound ↔
      ∃ batch ∈ s.recorded, batch.descriptorSet = some binding.2 ∧ batch.textures = binding.1 := by
    intro binding
    simp only [bindings, List.mem_filterMap, Option.map_eq_some_iff]
    constructor
    · rintro ⟨batch, hbatch, set, hset, rfl⟩
      exact ⟨batch, hbatch, hset, rfl⟩
    · rintro ⟨batch, hbatch, hset, htextures⟩
      exact ⟨batch, hbatch, binding.2, hset, Prod.ext htextures rfl⟩
  constructor
  · intro hheld binding hbinding
    obtain ⟨batch, hbatch, hset, htextures⟩ := (hmem binding).mp hbinding
    have hne : batch.textures ≠ [] := fun hnil => by
      rw [(h.bound batch hbatch).mpr hnil] at hset
      cases hset
    obtain ⟨set, content, hset', hcontent, hbegins⟩ := hheld batch hbatch hne
    rw [hset] at hset'
    cases hset'
    exact ⟨content, hcontent, htextures ▸ hbegins⟩
  · intro hheld batch hbatch hne
    have hset : batch.descriptorSet ≠ none := fun hnone => hne ((h.bound batch hbatch).mp hnone)
    obtain ⟨set, hset⟩ := Option.ne_none_iff_exists'.mp hset
    obtain ⟨content, hcontent, hbegins⟩ := hheld (batch.textures, set) ((hmem _).mpr ⟨batch, hbatch, hset, rfl⟩)
    exact ⟨set, content, hset, hcontent, hbegins⟩

theorem Idle.beginFrame (h : Idle s) :
    ∃ s', s.beginFrame = some s' ∧ s'.triangles = [] ∧
      Represents s.bindings.cleared s' [] ([] : List (Item K T)) := by
  have hroom : s.batchDrawCallIndex < limits.maxBatchDrawCalls := by
    rw [h.batchDrawCallIndex_eq]
    decide
  rw [Renderer2D.beginFrame, mapBuffer, if_pos hroom]
  refine ⟨_, rfl, rfl, ?_⟩
  constructor
  · exact h.batchDrawCallIndex_eq
  · exact Nat.zero_lt_succ _
  · simp
  · exact h.indexCount_eq
  · rfl
  · rfl
  · exact Nat.zero_le _
  · exact Nat.zero_le _
  · rfl
  · rfl
  · simp

/-- The last batch is presented where there is one. -/
theorem Represents.present {start : Bindings T} {done : List (List (Item K T))} {run items : List (Item K T)}
    (hstart : start.Follows []) (hbound : start.bound = []) (h : Represents start s done run)
    (hcut : done ++ [run] = GreedyCut.cut Fits items) :
    ∃ s', s.present = some s' ∧ Drawn start items s'.endFrame := by
  have hbatches : batches items = done ++ if run = [] then [] else [run] := by
    have hdone : done.filter (fun run => !run.isEmpty) = done := by
      rw [List.filter_eq_self]
      intro r hr
      simpa using h.nonempty r hr
    rw [batches, ← hcut, List.filter_append, hdone]
    by_cases hne : run = [] <;> simp [hne]
  have hidle : ∀ tables : List (List T), (tables.foldl Bindings.present start).cleared.Follows [] := fun tables =>
    (Bindings.follows_foldl hstart hbound tables).1.cleared
  by_cases hne : run = []
  · have hcount : s.indexCount = 0 := by rw [h.indexCount_eq, hne, indices_nil]
    rw [if_pos hne, List.append_nil] at hbatches
    refine ⟨_, present_of_eq h.room hcount, ?_⟩
    rw [← hbatches] at h
    constructor
    · exact ⟨hcount, rfl, h.bindings_eq ▸ hidle _⟩
    · exact h.recorded_eq
    · exact h.bindings_eq
    · exact h.bound
  · rw [if_neg hne] at hbatches
    refine ⟨_, present_of_ne h.room (h.indexCount_ne hne), ?_⟩
    have hbindings : s.presented.bindings = ((batches items).map table).foldl Bindings.present start := by
      rw [hbatches, List.map_append, List.foldl_append, ← h.bindings_eq, List.map_singleton, List.foldl_cons,
        List.foldl_nil, ← h.textures_eq]
      exact presented_bindings s
    constructor
    · exact ⟨rfl, rfl, hbindings ▸ hidle _⟩
    · rw [hbatches, List.mapIdx_concat, ← h.recorded_eq, ← h.batch_eq]
      exact presented_recorded
    · exact hbindings
    · exact bound_of_mem_presented h.bound

/-- The triangles that wait to be submitted are not part of any run. -/
theorem Represents.queued {start : Bindings T} {done : List (List (Item K T))} {run : List (Item K T)}
    (h : Represents start s done run) (triangles : List (TriangleInfo K)) :
    Represents start { s with triangles } done run where
  __ := h

theorem Represents.foldlM_present {start : Bindings T} (hstart : start.Follows []) (hbound : start.bound = [])
    (h : Represents start s [] []) (items : List (Item K T)) :
    Yields ((items.foldlM submitItem s).bind fun s => s.present.bind fun s => some s.endFrame)
      (Room 0 (GreedyCut.cut Fits items)) (Drawn start items) := by
  apply (h.foldlM_submitItem items).bind
  · intro s₁ hroom hs₁
    obtain ⟨done, run, hcut, hs₁⟩ := hs₁
    obtain ⟨s₂, hpresent, hs₂⟩ := hs₁.present hstart hbound hcut
    rw [hpresent]
    exact yields_some hroom hs₂
  · exact id

/-- The sprites and triangles that are submitted one by one, from the first batch on. -/
theorem Idle.drawFrame (h : Idle s) (items : List (Item K T)) :
    Yields (s.drawFrame items) (Room 0 (GreedyCut.cut Fits items)) (Drawn s.bindings.cleared items) := by
  obtain ⟨s₀, hbegin, -, hs₀⟩ := h.beginFrame
  simp only [Renderer2D.drawFrame, hbegin, Option.bind_eq_bind, Option.bind_some]
  exact hs₀.foldlM_present h.follows rfl items

/-- `Begin`, `SubmitTriangle` for each of the triangles, `SubmitTriangles`, `Present` and `End`. -/
def drawTriangles (s : Renderer2D K T) (infos : List (TriangleInfo K)) : Option (Renderer2D K T) := do
  let s ← s.beginFrame
  let s ← (infos.foldl submitTriangle s).submitTriangles
  let s ← s.present
  return s.endFrame

omit [DecidableEq T] [FloatArithmetic K] in
theorem foldl_submitTriangle (infos : List (TriangleInfo K)) (s : Renderer2D K T) :
    infos.foldl submitTriangle s = { s with triangles := s.triangles ++ infos } := by
  induction infos generalizing s with
  | nil => simp
  | cons info infos ih => simp [ih, submitTriangle]

/-- Triangles are drawn like any other items. -/
theorem Idle.drawTriangles (h : Idle s) (infos : List (TriangleInfo K)) :
    Yields (s.drawTriangles infos) (Room 0 (GreedyCut.cut (Fits (T := T)) (infos.map .triangle)))
      (Drawn s.bindings.cleared (infos.map .triangle)) := by
  obtain ⟨s₀, hbegin, htriangles, hs₀⟩ := h.beginFrame
  simp only [Renderer2D.drawTriangles, hbegin, Option.bind_eq_bind, Option.bind_some, foldl_submitTriangle,
    submitTriangles_eq, htriangles, List.nil_append]
  exact (hs₀.queued infos).foldlM_present h.follows rfl _

/-! ## All frames -/

/-- Frames go through exactly when each of them does. -/
theorem Idle.foldlM_drawFrame (frames : List (List (Item K T))) (h : Idle s) :
    Yields (frames.foldlM Renderer2D.drawFrame s) (∀ items ∈ frames, Room 0 (GreedyCut.cut Fits items)) Idle := by
  induction frames generalizing s with
  | nil => exact yields_some (by simp) h
  | cons items frames ih =>
    rw [List.foldlM_cons, Option.bind_eq_bind]
    apply (h.drawFrame items).bind
    · intro s' hroom hs'
      apply (ih hs'.idle).mono
      · rw [List.forall_mem_cons]
        exact (and_iff_right hroom).symm
      · exact fun _ => id
    · exact fun hroom => hroom items List.mem_cons_self

theorem idle_of_drawFrames {earlier : List (List (Item K T))}
    (h : earlier.foldlM Renderer2D.drawFrame init = some s) : Idle s :=
  ((idle_init.foldlM_drawFrame earlier).post_of_eq h).2

theorem Idle.held_iff_compatible (h : Idle s) {items : List (Item K T)} {s' : Renderer2D K T}
    (hframe : s.drawFrame items = some s') :
    s'.SetsHeld ↔ (Bindings.textured ((batches items).map table)).IsChain Bindings.Compatible := by
  have hdrawn := ((h.drawFrame items).post_of_eq hframe).2
  rw [hdrawn.setsHeld_iff_held, hdrawn.bindings_eq]
  exact (Bindings.follows_foldl h.follows rfl _).2

/-- No batch and no vertex is out of bounds, whatever has been drawn, exactly when the greedy
runs of each frame are few and small enough. -/
theorem drawFrames_isSome_iff (frames : List (List (Item K T))) :
    (frames.foldlM Renderer2D.drawFrame init).isSome = true ↔
      ∀ items ∈ frames, (GreedyCut.cut Fits items).length ≤ limits.maxBatchDrawCalls ∧
        ∀ run ∈ GreedyCut.cut Fits items, vertexCount run ≤ bufferVertices := by
  rw [(idle_init.foldlM_drawFrame frames).isSome_iff]
  simp only [Room, Nat.zero_add]

/-- At the end of a frame the sets hold what they were bound for exactly when the textured
batches that follow each other differ in the number of their textures, or in nothing. -/
theorem setsHeld_iff {earlier : List (List (Item K T))} (hearlier : earlier.foldlM Renderer2D.drawFrame init = some s)
    {items : List (Item K T)} {s' : Renderer2D K T} (hframe : s.drawFrame items = some s') :
    s'.SetsHeld ↔ (Bindings.textured ((batches items).map table)).IsChain fun table next =>
      table.length = next.length → table = next :=
  (idle_of_drawFrames hearlier).held_iff_compatible hframe

/-! ## Two frames that go wrong -/

theorem setsHeld_one_texture :
    ∃ s', drawFrame init [plainSprite 0] = some s' ∧
      (s'.SetsHeld ↔ (Bindings.textured ((batches [plainSprite 0]).map table)).IsChain fun table next =>
        table.length = next.length → table = next) := by
  have hroom : Room 0 (GreedyCut.cut Fits [plainSprite 0]) := by decide +kernel
  obtain ⟨s', hframe, -⟩ := (idle_init.drawFrame [plainSprite 0]).result hroom
  exact ⟨s', hframe, setsHeld_iff (rfl : ([] : List (List (Item ℚ Nat))).foldlM drawFrame init = some init) hframe⟩

/-- Thirty-two sprites with as many textures make two batches with sixteen textures each, which
share a set. -/
theorem not_setsHeld_thirty_two_textures :
    ∃ s', drawFrame init ((List.range 32).map plainSprite) = some s' ∧ ¬ s'.SetsHeld := by
  have hroom : Room 0 (GreedyCut.cut Fits ((List.range 32).map plainSprite)) := by decide +kernel
  have htables : (batches ((List.range 32).map plainSprite)).map table =
      [List.range 16, List.range' 16 16] := by decide +kernel
  obtain ⟨s', hframe, -⟩ := (idle_init.drawFrame ((List.range 32).map plainSprite)).result hroom
  refine ⟨s', hframe, ?_⟩
  rw [idle_init.held_iff_compatible hframe, htables]
  intro hchain
  have hcompatible : Bindings.Compatible (List.range 16) (List.range' 16 16) := by
    simpa [Bindings.textured] using hchain
  exact absurd (hcompatible (by decide)) (by decide)

theorem cut_triangles {count : Nat} (h : 3 * count ≤ limits.indiciesSize) :
    GreedyCut.cut Fits (List.replicate count plainTriangle) = [List.replicate count plainTriangle] := by
  apply GreedyCut.cut_of_packed
  apply packed_of_forall (k := 3)
  · intro item hitem
    rw [List.eq_of_mem_replicate hitem]
    rfl
  · rw [List.length_replicate]
    exact h
  · have hnone : (List.replicate count plainTriangle).filterMap Item.texture = [] := by
      simp [plainTriangle, Item.texture]
    rw [length_table, hnone]
    exact Nat.zero_le _

theorem vertexCount_triangles (count : Nat) : vertexCount (List.replicate count plainTriangle) = 3 * count := by
  rw [vertexCount_of_forall (k := 3), List.length_replicate]
  intro item hitem
  rw [List.eq_of_mem_replicate hitem]
  rfl

/-- Three vertices are written for three indices, but the buffer has room for no more than four
vertices for six indices. -/
theorem drawFrame_many_triangles :
    [List.replicate 13334 plainTriangle].foldlM drawFrame init = none := by
  have hindices : 3 * 13334 ≤ limits.indiciesSize := by decide
  have hvertices : ¬ 3 * 13334 ≤ bufferVertices := by decide
  apply (idle_init.foldlM_drawFrame _).fault
  intro hroom
  have hrun := (hroom _ (List.mem_singleton_self _)).2
  rw [cut_triangles hindices, List.forall_mem_singleton, vertexCount_triangles] at hrun
  exact hvertices hrun

end Renderer2D

end Lumos.Graphics.Batching
