import Lumos.Graphics.BatchItems
import Lumos.Graphics.DescriptorSets
import Lumos.Library.Loop

/-!
# A frame is cut into batches greedily

While items are submitted the renderer represents the runs it has recorded and the run it is
in. An item that does not fit behind the run is submitted after a flush. So a frame is cut
greedily, and faults exactly when there are too many runs or one has too many vertices.
-/
namespace Lumos.Graphics.Batching

open Maths Outcome

variable {K T : Type} [DecidableEq T] [FloatArithmetic K]

/-- What a batch shows, whichever set it is bound to. -/
def Batch.unbound {K T : Type} (batch : Batch K T) : Batch K T := { batch with descriptorSet := none }

/-- The batch a run makes. -/
def batchOf (drawCallIndex : Nat) (run : List (Item K T)) : Batch K T where
  drawCallIndex := drawCallIndex
  vertices := vertices run
  indexCount := indices run
  textures := table run
  descriptorSet := none

/-! ## Frames of items -/

namespace Renderer2D

def submitItem (s : Renderer2D K T) : Item K T → Option (Renderer2D K T)
  | .sprite command => s.submitCommand command
  | .triangle info => s.submitInternal info

/-- A frame in which items are submitted one by one, in any order. -/
def drawFrame (s : Renderer2D K T) (items : List (Item K T)) : Option (Renderer2D K T) := do
  let s ← s.beginFrame
  let s ← items.foldlM submitItem s
  let s ← s.present
  return s.endFrame

theorem submitQueue_eq (s : Renderer2D K T) :
    s.submitQueue = (s.commandQueue.map Item.sprite).foldlM submitItem s := by
  rw [submitQueue, List.foldlM_map]
  rfl

theorem submitTriangles_eq (s : Renderer2D K T) :
    s.submitTriangles = (s.triangles.map Item.triangle).foldlM submitItem s := by
  rw [submitTriangles, List.foldlM_map]
  rfl

/-- `RenderScene` is a frame of the sprites submitted. -/
theorem renderScene_eq (s : Renderer2D K T) (commands : List (RenderCommand2D K T)) :
    (s.beginScene commands).renderScene =
      ((s.beginScene commands).drawFrame (commands.map Item.sprite)) := by
  have hqueue : ∀ t, (s.beginScene commands).beginFrame = some t → t.commandQueue = commands := by
    intro t h
    simp only [beginFrame, mapBuffer] at h
    split at h
    · cases h
      rfl
    · cases h
  rw [renderScene, drawFrame]
  cases hbegin : (s.beginScene commands).beginFrame with
  | none => rfl
  | some t =>
    simp only [Option.bind_eq_bind, Option.bind_some]
    rw [submitQueue_eq, hqueue t hbegin]

/-! ## Presenting -/

section Present

omit [DecidableEq T] [FloatArithmetic K]

def bindings (s : Renderer2D K T) : Bindings T where
  descriptorSet := s.descriptorSet
  descriptorSets := s.descriptorSets
  previousFrameTextureCount := s.previousFrameTextureCount
  bound := s.recorded.filterMap fun batch => batch.descriptorSet.map fun set => (batch.textures, set)

/-- The state once the batch has been recorded. -/
def presented (s : Renderer2D K T) : Renderer2D K T :=
  let s := { s with empty := false }.updateDesciptorSet
  { s with recorded := s.recorded ++ [s.batch], indexCount := 0, batchDrawCallIndex := s.batchDrawCallIndex + 1 }

variable {s : Renderer2D K T}

theorem present_of_ne (hroom : s.batchDrawCallIndex < limits.maxBatchDrawCalls) (hne : s.indexCount ≠ 0) :
    s.present = some s.presented := by
  rw [present, if_pos hroom, if_neg hne]
  rfl

theorem present_of_eq (hroom : s.batchDrawCallIndex < limits.maxBatchDrawCalls) (heq : s.indexCount = 0) :
    s.present = some { s with empty := true } := by
  rw [present, if_pos hroom, if_pos heq]

/-- Only the sets are touched. -/
theorem updateDesciptorSet_eq (s : Renderer2D K T) :
    s.updateDesciptorSet =
      { s with
        descriptorSet := s.updateDesciptorSet.descriptorSet
        descriptorSets := s.updateDesciptorSet.descriptorSets
        previousFrameTextureCount := s.updateDesciptorSet.previousFrameTextureCount } := by
  unfold updateDesciptorSet
  split
  · rfl
  · dsimp only
    split <;> rfl

@[simp] theorem presented_batchDrawCallIndex : s.presented.batchDrawCallIndex = s.batchDrawCallIndex + 1 := by
  rw [presented, updateDesciptorSet_eq]

@[simp] theorem presented_indexCount : s.presented.indexCount = 0 := rfl

@[simp] theorem presented_recorded :
    s.presented.recorded.map Batch.unbound = s.recorded.map Batch.unbound ++ [s.batch.unbound] := by
  rw [presented, updateDesciptorSet_eq]
  simp [batch, Batch.unbound]

/-- A batch is bound to a set exactly when it has textures. -/
theorem bound_of_mem_presented (h : ∀ batch ∈ s.recorded, batch.descriptorSet = none ↔ batch.textures = []) :
    ∀ batch ∈ s.presented.recorded, batch.descriptorSet = none ↔ batch.textures = [] := by
  intro batch hbatch
  rw [presented, updateDesciptorSet_eq] at hbatch
  rcases List.mem_append.mp hbatch with hold | hnew
  · exact h batch hold
  · rw [List.mem_singleton.mp hnew]
    simp [Renderer2D.batch, List.length_pos_iff]

theorem presented_bindings (s : Renderer2D K T) : s.presented.bindings = s.bindings.present s.textures := by
  by_cases hzero : s.textures.length = 0
  · simp [presented, updateDesciptorSet, Bindings.present, bindings, hzero, batch]
  · have hpos : 0 < s.textures.length := by omega
    by_cases hcount : s.previousFrameTextureCount = s.textures.length
    · simp [presented, updateDesciptorSet, Bindings.present, bindings, hzero, hcount, batch, hpos]
    · have hcount : ¬ s.textures.length = s.previousFrameTextureCount := fun h => hcount h.symm
      simp [presented, updateDesciptorSet, Bindings.present, bindings, hzero, hcount, batch, hpos]

end Present

/-! ## What is represented -/

/-- The runs recorded in the frame, and the one that is being written. The sets have been
bound for the recorded ones. -/
structure Represents (start : Bindings T) (s : Renderer2D K T) (done : List (List (Item K T)))
    (run : List (Item K T)) : Prop where
  index_eq : s.batchDrawCallIndex = done.length
  index_lt : done.length < limits.maxBatchDrawCalls
  nonempty : ∀ r ∈ done, r ≠ []
  indexCount_eq : s.indexCount = indices run
  textures_eq : s.textures = table run
  buffer_eq : s.buffer = vertices run
  vertexCount_le : vertexCount run ≤ bufferVertices
  length_table_le : (table run).length ≤ limits.maxTextures
  recorded_eq : s.recorded.map Batch.unbound = done.mapIdx batchOf
  bindings_eq : s.bindings = (done.map table).foldl Bindings.present start
  bound : ∀ batch ∈ s.recorded, batch.descriptorSet = none ↔ batch.textures = []

variable {start : Bindings T} {s : Renderer2D K T} {done : List (List (Item K T))} {run : List (Item K T)}

theorem Represents.batch_eq (h : Represents start s done run) : s.batch.unbound = batchOf done.length run := by
  simp [batch, Batch.unbound, batchOf, h.index_eq, h.indexCount_eq, h.textures_eq, h.buffer_eq]

theorem Represents.room (h : Represents start s done run) : s.batchDrawCallIndex < limits.maxBatchDrawCalls := by
  rw [h.index_eq]
  exact h.index_lt

theorem Represents.indexCount_ne (h : Represents start s done run) (hne : run ≠ []) : s.indexCount ≠ 0 := by
  rw [h.indexCount_eq]
  exact fun hzero => hne (indices_eq_zero_iff.mp hzero)

/-- A flush needs one more batch. -/
theorem Represents.flushAndReset (h : Represents start s done run) (hne : run ≠ []) :
    Yields s.flushAndReset (done.length + 1 < limits.maxBatchDrawCalls)
      (Represents start · (done ++ [run]) []) := by
  have hindex : s.presented.batchDrawCallIndex = done.length + 1 := by
    rw [presented_batchDrawCallIndex, h.index_eq]
  have hmapped : s.presented.batchDrawCallIndex < limits.maxBatchDrawCalls ↔
      done.length + 1 < limits.maxBatchDrawCalls := by rw [hindex]
  rw [Renderer2D.flushAndReset, present_of_ne h.room (h.indexCount_ne hne), Option.bind_eq_bind, Option.bind_some,
    mapBuffer]
  by_cases hroom : done.length + 1 < limits.maxBatchDrawCalls
  · rw [if_pos (hmapped.mpr hroom)]
    apply yields_some hroom
    constructor
    · simpa using hindex
    · simpa using hroom
    · intro r hr
      rcases List.mem_append.mp hr with hr | hr
      · exact h.nonempty r hr
      · rwa [List.mem_singleton.mp hr]
    · rfl
    · rfl
    · rfl
    · exact Nat.zero_le _
    · exact Nat.zero_le _
    · rw [List.mapIdx_concat, ← h.recorded_eq, ← h.batch_eq]
      exact presented_recorded
    · rw [List.map_append, List.foldl_append, ← h.bindings_eq, List.map_singleton, List.foldl_cons, List.foldl_nil,
        ← h.textures_eq]
      exact presented_bindings s
    · exact bound_of_mem_presented h.bound
  · rw [if_neg (mt hmapped.mp hroom)]
    exact yields_none hroom

/-! ## One item -/

omit [DecidableEq T] [FloatArithmetic K] in
theorem reset_of_flushAndReset {s' : Renderer2D K T} (h : s.flushAndReset = some s') :
    s'.indexCount = 0 ∧ s'.textures = [] := by
  by_cases hroom : s.batchDrawCallIndex < limits.maxBatchDrawCalls
  · have hpresent : ∃ p, s.present = some p ∧ p.indexCount = 0 := by
      by_cases hzero : s.indexCount = 0
      · exact ⟨_, present_of_eq hroom hzero, hzero⟩
      · exact ⟨_, present_of_ne hroom hzero, rfl⟩
    obtain ⟨p, hp, hcount⟩ := hpresent
    rw [Renderer2D.flushAndReset, hp, Option.bind_eq_bind, Option.bind_some, mapBuffer] at h
    split at h
    · cases h
      exact ⟨hcount, rfl⟩
    · cases h
  · rw [Renderer2D.flushAndReset, present, if_neg hroom] at h
    cases h

omit [DecidableEq T] [FloatArithmetic K] in
theorem write_yields (hroom : s.buffer.length ≤ bufferVertices) (vertices : List (VertexData K)) :
    Yields (s.write vertices) (s.buffer.length + vertices.length ≤ bufferVertices)
      (· = { s with buffer := s.buffer ++ vertices }) := by
  rw [write, FixedArray.foldlM_push _ _ _ hroom]
  by_cases h : s.buffer.length + vertices.length ≤ bufferVertices
  · rw [if_pos h]
    exact yields_some h rfl
  · rw [if_neg h]
    exact yields_none h

omit [FloatArithmetic K] in
theorem submitTexture_of_fits {texture : T} (h : (addTexture s.textures (some texture)).length ≤ limits.maxTextures) :
    s.submitTexture texture =
      some (slot (addTexture s.textures (some texture)) (some texture),
        { s with textures := addTexture s.textures (some texture) }) := by
  by_cases hmem : texture ∈ s.textures
  · simp [submitTexture, addTexture, slot, hmem]
  · have hlength : s.textures.length + 1 ≤ limits.maxTextures := by simpa [addTexture, hmem] using h
    have hroom : s.textures.length < maxBoundTextures := hlength
    have hnot : ¬ s.textures.length ≥ limits.maxTextures := by omega
    simp [submitTexture, addTexture, slot, hmem, hnot, FixedArray.push_of_lt hroom, List.idxOf_append_of_notMem hmem]

omit [FloatArithmetic K] in
theorem submitTexture_of_full {texture : T} (hmem : texture ∉ s.textures)
    (hfull : s.textures.length ≥ limits.maxTextures) :
    s.submitTexture texture = s.flushAndReset.bind (submitTexture · texture) := by
  rw [submitTexture, if_neg hmem, if_pos hfull, Option.bind_eq_bind]
  cases hflush : s.flushAndReset with
  | none => rfl
  | some s' =>
    have hreset := (reset_of_flushAndReset hflush).2
    have hroom : ¬ (0 ≥ limits.maxTextures) := by decide
    simp [submitTexture, hreset, hroom]

theorem submitItem_of_full {item : Item K T} (hfull : s.indexCount ≥ limits.indiciesSize) :
    s.submitItem item = s.flushAndReset.bind (submitItem · item) := by
  have hroom : ¬ (0 ≥ limits.indiciesSize) := by decide
  cases hflush : s.flushAndReset with
  | none => cases item <;> simp [submitItem, submitCommand, submitInternal, hfull, hflush]
  | some s' =>
    have hreset := (reset_of_flushAndReset hflush).1
    cases item <;> simp [submitItem, submitCommand, submitInternal, hfull, hflush, hreset, hroom]

theorem submitCommand_of_full {command : RenderCommand2D K T} (hindices : ¬ s.indexCount ≥ limits.indiciesSize)
    {texture : T} (htexture : command.renderable.texture = some texture) (hmem : texture ∉ s.textures)
    (hfull : s.textures.length ≥ limits.maxTextures) :
    s.submitCommand command = s.flushAndReset.bind (submitCommand · command) := by
  have hroom : ¬ (0 ≥ limits.indiciesSize) := by decide
  have hsubmit := submitTexture_of_full hmem hfull
  cases hflush : s.flushAndReset with
  | none =>
    rw [hflush, Option.bind_none] at hsubmit
    simp [submitCommand, hindices, htexture, hsubmit]
  | some s' =>
    have hreset := (reset_of_flushAndReset hflush).1
    rw [hflush, Option.bind_some] at hsubmit
    simp [submitCommand, hindices, htexture, hsubmit, hreset, hroom]

/-- An item that does not fit is submitted after a flush. -/
theorem Represents.submitItem_of_not_fits (h : Represents start s done run) {item : Item K T} (hnot : ¬ Fits run item) :
    s.submitItem item = s.flushAndReset.bind (submitItem · item) := by
  by_cases hindices : s.indexCount ≥ limits.indiciesSize
  · exact submitItem_of_full hindices
  · have hslots : ¬ (addTexture (table run) item.texture).length ≤ limits.maxTextures := by
      intro hle
      rw [h.indexCount_eq] at hindices
      exact hnot ⟨Nat.not_le.mp hindices, by rw [table_snoc]; exact hle⟩
    have hle := h.length_table_le
    cases item with
    | triangle info => exact absurd hle hslots
    | sprite command =>
      have htextures := h.textures_eq
      cases htexture : command.renderable.texture with
      | none => exact absurd hle (by simpa [Item.texture, htexture, addTexture] using hslots)
      | some texture =>
        have hmem : texture ∉ table run := by
          intro hmem
          simp only [Item.texture, htexture, addTexture, hmem, if_true] at hslots
          exact hslots hle
        have hfull : s.textures.length ≥ limits.maxTextures := by
          simp only [Item.texture, htexture, addTexture, hmem, if_false, List.length_append, List.length_singleton]
            at hslots
          rw [htextures]
          omega
        exact submitCommand_of_full hindices htexture (by rw [htextures]; exact hmem) hfull

/-- With indices and a slot left the item is written. -/
theorem submitItem_of_room {item : Item K T} (hindices : ¬ s.indexCount ≥ limits.indiciesSize)
    (hslots : (addTexture s.textures item.texture).length ≤ limits.maxTextures) :
    s.submitItem item =
      (write { s with textures := addTexture s.textures item.texture }
        (item.vertices (addTexture s.textures item.texture))).bind
        fun s' => some { s' with indexCount := s'.indexCount + item.indices } := by
  cases item with
  | triangle info =>
    rw [submitItem, submitInternal, if_neg hindices]
    rfl
  | sprite command =>
    rw [submitItem, submitCommand, if_neg hindices]
    cases htexture : command.renderable.texture with
    | none => simp [Item.texture, Item.vertices, Item.indices, addTexture, slot, htexture]
    | some texture =>
      rw [Item.texture, htexture] at hslots
      simp [Item.texture, Item.vertices, Item.indices, htexture, submitTexture_of_fits hslots]

/-- What is known of the state once an item has been put behind the run. -/
theorem Represents.put (h : Represents start s done run) {item : Item K T} (hfits : Fits run item)
    (hvertices : vertexCount (run ++ [item]) ≤ bufferVertices) :
    Represents start
      { s with
        textures := addTexture s.textures item.texture
        buffer := s.buffer ++ item.vertices (addTexture s.textures item.texture)
        indexCount := s.indexCount + item.indices } done (run ++ [item]) where
  index_eq := h.index_eq
  index_lt := h.index_lt
  nonempty := h.nonempty
  indexCount_eq := by simp [h.indexCount_eq]
  textures_eq := by simp [h.textures_eq]
  buffer_eq := by simp [h.buffer_eq, h.textures_eq, vertices_snoc]
  vertexCount_le := hvertices
  length_table_le := hfits.2
  recorded_eq := h.recorded_eq
  bindings_eq := h.bindings_eq
  bound := h.bound

/-- An item that fits needs room for its vertices. -/
theorem Represents.submitItem_of_fits (h : Represents start s done run) {item : Item K T} (hfits : Fits run item) :
    Yields (s.submitItem item) (vertexCount (run ++ [item]) ≤ bufferVertices)
      (Represents start · done (run ++ [item])) := by
  have hindices : ¬ s.indexCount ≥ limits.indiciesSize := by
    rw [h.indexCount_eq]
    exact Nat.not_le.mpr hfits.1
  have hslots : (addTexture s.textures item.texture).length ≤ limits.maxTextures := by
    rw [h.textures_eq, ← table_snoc]
    exact hfits.2
  have hbuffer : s.buffer.length = vertexCount run := by rw [h.buffer_eq, length_vertices]
  have hroom : s.buffer.length ≤ bufferVertices := by
    rw [hbuffer]
    exact h.vertexCount_le
  have hcount : s.buffer.length + (item.vertices (addTexture s.textures item.texture)).length ≤ bufferVertices ↔
      vertexCount (run ++ [item]) ≤ bufferVertices := by
    rw [hbuffer, Item.length_vertices, vertexCount_append, vertexCount_singleton]
  rw [submitItem_of_room hindices hslots]
  apply ((write_yields (s := { s with textures := addTexture s.textures item.texture }) hroom _).mono hcount
    (fun _ => id)).bind
  · intro s' hok hs'
    rw [hs']
    exact yields_some hok (h.put hfits hok)
  · exact id

/-- An item that does not fit begins the next run. -/
theorem Represents.submitItem_next (h : Represents start s done run) {item : Item K T} (hnot : ¬ Fits run item) :
    Yields (s.submitItem item) (done.length + 1 < limits.maxBatchDrawCalls ∧ vertexCount [item] ≤ bufferVertices)
      (Represents start · (done ++ [run]) [item]) := by
  have hne : run ≠ [] := by
    intro hnil
    rw [hnil] at hnot
    exact hnot (fits_nil item)
  rw [h.submitItem_of_not_fits hnot]
  apply (h.flushAndReset hne).bind
  · intro s' hroom hs'
    apply (hs'.submitItem_of_fits (fits_nil item)).mono
    · rw [List.nil_append]
      exact (and_iff_right hroom).symm
    · exact fun _ => id
  · exact And.left

/-! ## All items -/

/-- There is a batch for each run, and a buffer that holds its vertices. -/
def Room (done : Nat) (runs : List (List (Item K T))) : Prop :=
  done + runs.length ≤ limits.maxBatchDrawCalls ∧ ∀ run ∈ runs, vertexCount run ≤ bufferVertices

instance (done : Nat) (runs : List (List (Item K T))) : Decidable (Room done runs) :=
  inferInstanceAs (Decidable (_ ∧ _))

omit [DecidableEq T] [FloatArithmetic K] in
theorem room_cons {done : Nat} {run : List (Item K T)} {runs : List (List (Item K T))} :
    Room done (run :: runs) ↔ vertexCount run ≤ bufferVertices ∧ Room (done + 1) runs := by
  simp only [Room, List.length_cons, List.forall_mem_cons]
  constructor
  · rintro ⟨hlength, hrun, hruns⟩
    exact ⟨hrun, by omega, hruns⟩
  · rintro ⟨hrun, hlength, hruns⟩
    exact ⟨by omega, hrun, hruns⟩

omit [FloatArithmetic K] in
/-- What the current run makes of the items has room only if the run has, and a batch for it. -/
theorem room_cutFrom {done : Nat} {current items : List (Item K T)}
    (h : Room done (GreedyCut.cutFrom Fits current items)) :
    done < limits.maxBatchDrawCalls ∧ vertexCount current ≤ bufferVertices := by
  obtain ⟨more, rest, hcut⟩ : ∃ more rest, GreedyCut.cutFrom Fits current items = (current ++ more) :: rest :=
    GreedyCut.cutFrom_eq_cons current items
  rw [hcut, room_cons, vertexCount_append] at h
  have hbatch := h.2.1
  omega

/-- The items are cut greedily. -/
theorem Represents.foldlM_submitItem (items : List (Item K T)) (h : Represents start s done run) :
    Yields (items.foldlM submitItem s) (Room done.length (GreedyCut.cutFrom Fits run items)) fun s' =>
      ∃ done' run', done' ++ [run'] = done ++ GreedyCut.cutFrom Fits run items ∧ Represents start s' done' run' := by
  induction items generalizing s done run with
  | nil =>
    apply yields_some
    · exact ⟨h.index_lt, by simpa using h.vertexCount_le⟩
    · exact ⟨done, run, rfl, h⟩
  | cons item items ih =>
    rw [List.foldlM_cons, Option.bind_eq_bind]
    by_cases hfits : Fits run item
    · rw [GreedyCut.cutFrom_of_fits hfits]
      apply (h.submitItem_of_fits hfits).bind
      · intro s' _ hs'
        exact ih hs'
      · exact fun hroom => (room_cutFrom hroom).2
    · rw [GreedyCut.cutFrom_of_not_fits hfits]
      apply (h.submitItem_next hfits).bind
      · intro s' _ hs'
        apply (ih hs').mono
        · rw [room_cons, List.length_append, List.length_singleton]
          exact (and_iff_right h.vertexCount_le).symm
        · rintro s'' ⟨done', run', heq, hs''⟩
          exact ⟨done', run', by rw [heq]; simp, hs''⟩
      · exact fun hroom => room_cutFrom (room_cons.mp hroom).2

end Renderer2D

end Lumos.Graphics.Batching
