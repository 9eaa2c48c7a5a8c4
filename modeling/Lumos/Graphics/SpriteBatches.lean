import Mathlib.Data.List.Forall2
import Lumos.Graphics.Frames

/-!
# The batches of a queue of sprites

A scene of sprites is drawn completely exactly when the sprites can be cut into a hundred runs
of ten thousand sprites with sixteen textures at most. Then every sprite is drawn once, in
order, with the texture it was submitted with.
-/
namespace Lumos.Graphics.Batching

open Maths Outcome

variable {K T : Type} [DecidableEq T]

def texture (command : RenderCommand2D K T) : Option T := command.renderable.texture

/-- The sprites of a batch are no more than its indices and its texture slots allow. -/
def OneBatch (run : List (RenderCommand2D K T)) : Prop :=
  6 * run.length ≤ limits.indiciesSize ∧ (run.filterMap texture).toFinset.card ≤ limits.maxTextures

instance (run : List (RenderCommand2D K T)) : Decidable (OneBatch run) := inferInstanceAs (Decidable (_ ∧ _))

/-- The batch draws these sprites, in order, and each with the texture it was submitted with. -/
structure Draws [FloatArithmetic K] (batch : Batch K T) (run : List (RenderCommand2D K T)) : Prop where
  indexCount_eq : batch.indexCount = 6 * run.length
  indexCount_le : batch.indexCount ≤ limits.indiciesSize
  length_textures_le : batch.textures.length ≤ limits.maxTextures
  vertices : ∃ slots : List Nat,
    batch.vertices = (List.zipWith quadVertices slots run).flatten ∧
      List.Forall₂ (fun slot command => Names batch.textures slot (texture command)) slots run

/-- The sprites are drawn one batch after the other, each batch from a buffer of its own. -/
def SplitsInto [FloatArithmetic K] (batches : List (Batch K T)) (commands : List (RenderCommand2D K T)) : Prop :=
  ∃ runs : List (List (RenderCommand2D K T)), runs.flatten = commands ∧ List.Forall₂ Draws batches runs ∧
    batches.map Batch.drawCallIndex = List.range batches.length

/-! ## Runs of sprites -/

def sprites (run : List (RenderCommand2D K T)) : List (Item K T) := run.map Item.sprite

omit [DecidableEq T] in
theorem indices_sprites (run : List (RenderCommand2D K T)) : indices (sprites run) = 6 * run.length := by
  rw [indices_of_forall (k := 6), sprites, List.length_map]
  intro item hitem
  obtain ⟨command, -, rfl⟩ := List.mem_map.mp hitem
  rfl

omit [DecidableEq T] in
theorem vertexCount_sprites (run : List (RenderCommand2D K T)) : vertexCount (sprites run) = 4 * run.length := by
  rw [vertexCount_of_forall (k := 4), sprites, List.length_map]
  intro item hitem
  obtain ⟨command, -, rfl⟩ := List.mem_map.mp hitem
  rfl

omit [DecidableEq T] in
theorem filterMap_sprites (run : List (RenderCommand2D K T)) :
    (sprites run).filterMap Item.texture = run.filterMap texture := by
  rw [sprites, List.filterMap_map]
  rfl

theorem length_table_sprites (run : List (RenderCommand2D K T)) :
    (table (sprites run)).length = (run.filterMap texture).toFinset.card := by
  rw [length_table, filterMap_sprites]

theorem packed_sprites_iff {run : List (RenderCommand2D K T)} : GreedyCut.Packed Fits (sprites run) ↔ OneBatch run := by
  constructor
  · intro h
    rw [OneBatch, ← length_table_sprites]
    induction run using List.reverseRecOn with
    | nil => exact ⟨Nat.zero_le _, Nat.zero_le _⟩
    | append_singleton before last _ =>
      have hsnoc : sprites (before ++ [last]) = sprites before ++ [.sprite last] := by simp [sprites]
      have hfits : Fits (sprites before) (.sprite last) := h _ _ (by rw [hsnoc])
      have hindices := hfits.1
      have hlimit : limits.indiciesSize = 6 * 10000 := rfl
      rw [indices_sprites] at hindices
      constructor
      · rw [List.length_append, List.length_singleton]
        omega
      · rw [hsnoc]
        exact hfits.2
  · intro h
    apply packed_of_forall (k := 6)
    · intro item hitem
      obtain ⟨command, -, rfl⟩ := List.mem_map.mp hitem
      rfl
    · rw [sprites, List.length_map]
      exact h.1
    · rw [length_table_sprites]
      exact h.2

omit [DecidableEq T] in
/-- Runs of sprites' items are runs of sprites. -/
theorem exists_sprites {pieces : List (List (Item K T))} {commands : List (RenderCommand2D K T)}
    (h : pieces.flatten = sprites commands) :
    ∃ runs : List (List (RenderCommand2D K T)), runs.flatten = commands ∧ pieces = runs.map sprites := by
  induction pieces generalizing commands with
  | nil =>
    have hnil : commands = [] := List.map_eq_nil_iff.mp h.symm
    exact ⟨[], hnil.symm, rfl⟩
  | cons piece pieces ih =>
    rw [List.flatten_cons] at h
    obtain ⟨first, rest, rfl, hfirst, hrest⟩ := List.map_eq_append_iff.mp h.symm
    obtain ⟨runs, rfl, rfl⟩ := ih hrest.symm
    exact ⟨first :: runs, rfl, by rw [List.map_cons, ← hfirst, sprites]⟩

/-! ## What is recorded -/

section Recorded

variable [FloatArithmetic K]

/-- A batch made of a run of sprites that fit into one draws them. -/
theorem draws_of_unbound {batch : Batch K T} {run : List (RenderCommand2D K T)} {i : Nat}
    (hbatch : batch.unbound = batchOf i (sprites run)) (hrun : OneBatch run) : Draws batch run := by
  have hindexCount : batch.indexCount = 6 * run.length := by
    rw [← indices_sprites]
    exact congrArg Batch.indexCount hbatch
  have htextures : batch.textures = table (sprites run) := congrArg Batch.textures hbatch
  have hvertices : batch.vertices = vertices (sprites run) := congrArg Batch.vertices hbatch
  constructor
  · exact hindexCount
  · rw [hindexCount]
    exact hrun.1
  · rw [htextures, length_table_sprites]
    exact hrun.2
  · refine ⟨run.map fun command => slot batch.textures (texture command), ?_, ?_⟩
    · rw [List.zipWith_map_left, List.zipWith_self, hvertices, htextures, vertices, ← List.flatMap_def, sprites,
        List.flatMap_map]
      rfl
    · rw [List.forall₂_map_left_iff, List.forall₂_same]
      intro command hcommand
      apply names_slot
      intro t ht
      rw [htextures, mem_table, filterMap_sprites]
      exact List.mem_filterMap.mpr ⟨command, hcommand, ht⟩

theorem forall₂_of_recorded {recorded : List (Batch K T)} {pieces : List (List (Item K T))}
    (h : recorded.map Batch.unbound = pieces.mapIdx batchOf) :
    List.Forall₂ (fun batch piece => ∃ i, batch.unbound = batchOf i piece) recorded pieces := by
  have hlength : recorded.length = pieces.length := by
    simpa using congrArg List.length h
  rw [List.forall₂_iff_get]
  refine ⟨hlength, ?_⟩
  intro i hrecorded hpieces
  have hget := congrArg (fun l : List (Batch K T) => l[i]?) h
  refine ⟨i, ?_⟩
  simpa [hrecorded, hpieces] using hget

theorem drawCallIndex_of_recorded {recorded : List (Batch K T)} {pieces : List (List (Item K T))}
    (h : recorded.map Batch.unbound = pieces.mapIdx batchOf) :
    recorded.map Batch.drawCallIndex = List.range recorded.length := by
  have hlength : recorded.length = pieces.length := by
    simpa using congrArg List.length h
  have hindex := congrArg (List.map Batch.drawCallIndex) h
  rw [List.map_map] at hindex
  rw [hlength]
  calc recorded.map Batch.drawCallIndex
      = (pieces.mapIdx batchOf).map Batch.drawCallIndex := hindex
    _ = List.range pieces.length := by
      apply List.ext_getElem
      · simp
      · intro i hleft hright
        simp [batchOf]

/-! ## A whole queue -/

omit [FloatArithmetic K] in
theorem oneBatch_of_mem_cut {commands run : List (RenderCommand2D K T)}
    (h : sprites run ∈ GreedyCut.cut Fits (sprites commands)) : OneBatch run :=
  packed_sprites_iff.mp (GreedyCut.packed_of_mem_cut fits_nil h)

omit [FloatArithmetic K] in
/-- Sprites never write beyond a buffer. -/
theorem room_sprites_iff {commands : List (RenderCommand2D K T)} :
    Renderer2D.Room 0 (GreedyCut.cut Fits (sprites commands)) ↔
      (GreedyCut.cut Fits (sprites commands)).length ≤ limits.maxBatchDrawCalls := by
  have hbuffer : limits.indiciesSize / 6 * 4 = bufferVertices := by decide
  have hflatten : (GreedyCut.cut Fits (sprites commands)).flatten = sprites commands := GreedyCut.flatten_cut _
  obtain ⟨runs, -, hruns⟩ := exists_sprites hflatten
  rw [Renderer2D.Room, Nat.zero_add, and_iff_left_iff_imp]
  intro _ piece hpiece
  have hmem := hpiece
  rw [hruns] at hmem
  obtain ⟨run, -, rfl⟩ := List.mem_map.mp hmem
  have hindices := (oneBatch_of_mem_cut hpiece).1
  rw [vertexCount_sprites]
  omega

omit [FloatArithmetic K] in
/-- The greedy batches are the fewest there can be. -/
theorem room_sprites_iff_exists {commands : List (RenderCommand2D K T)} :
    Renderer2D.Room 0 (GreedyCut.cut Fits (sprites commands)) ↔
      ∃ runs : List (List (RenderCommand2D K T)), runs.flatten = commands ∧
        runs.length ≤ limits.maxBatchDrawCalls ∧ ∀ run ∈ runs, OneBatch run := by
  have hsome : 0 < limits.maxBatchDrawCalls := by decide
  rw [room_sprites_iff, GreedyCut.length_cut_le_iff fitsBehindLess fits_nil hsome]
  constructor
  · rintro ⟨pieces, hflatten, hlength, hpacked⟩
    obtain ⟨runs, hruns, rfl⟩ := exists_sprites hflatten
    refine ⟨runs, hruns, by simpa using hlength, ?_⟩
    intro run hrun
    exact packed_sprites_iff.mp (hpacked _ (List.mem_map_of_mem hrun))
  · rintro ⟨runs, rfl, hlength, hruns⟩
    refine ⟨runs.map sprites, List.map_flatten.symm, by simpa using hlength, ?_⟩
    intro piece hpiece
    obtain ⟨run, hrun, rfl⟩ := List.mem_map.mp hpiece
    exact packed_sprites_iff.mpr (hruns run hrun)

/-- What a frame of sprites has recorded. -/
theorem splitsInto_of_drawn {start : Bindings T} {commands : List (RenderCommand2D K T)} {s : Renderer2D K T}
    (h : Renderer2D.Drawn start (sprites commands) s) : SplitsInto s.recorded commands := by
  obtain ⟨runs, hflatten, hruns⟩ := exists_sprites (flatten_batches (sprites commands))
  have hforall := forall₂_of_recorded h.recorded_eq
  rw [hruns, List.forall₂_map_right_iff] at hforall
  have hdraws : List.Forall₂ Draws s.recorded runs := by
    rw [List.forall₂_iff_zip]
    refine ⟨hforall.length_eq, ?_⟩
    intro batch run hmem
    obtain ⟨i, hbatch⟩ := List.forall₂_zip hforall hmem
    have hpiece : sprites run ∈ batches (sprites commands) := by
      rw [hruns]
      exact List.mem_map_of_mem (List.of_mem_zip hmem).2
    exact draws_of_unbound hbatch (oneBatch_of_mem_cut (mem_cut_of_mem_batches hpiece))
  exact ⟨runs, hflatten, hdraws, drawCallIndex_of_recorded h.recorded_eq⟩

variable {s : Renderer2D K T}

/-- A queue of sprites is split into batches as it should be, whatever has been drawn before,
exactly when there is a way to do so with the command buffers there are. -/
theorem renderScene_splitsInto_iff {earlier : List (List (Item K T))}
    (hearlier : earlier.foldlM Renderer2D.drawFrame init = some s) (commands : List (RenderCommand2D K T)) :
    (∃ s', (s.beginScene commands).renderScene = some s' ∧ SplitsInto s'.recorded commands) ↔
      ∃ runs : List (List (RenderCommand2D K T)), runs.flatten = commands ∧
        runs.length ≤ limits.maxBatchDrawCalls ∧ ∀ run ∈ runs, OneBatch run := by
  have hidle := (Renderer2D.idle_of_drawFrames hearlier).beginScene commands
  have hyields := hidle.drawFrame (sprites commands)
  rw [← room_sprites_iff_exists, Renderer2D.renderScene_eq]
  constructor
  · rintro ⟨s', hs', -⟩
    exact (hyields.post_of_eq hs').1
  · intro hroom
    obtain ⟨s', hs', hdrawn⟩ := hyields.result hroom
    exact ⟨s', hs', splitsInto_of_drawn hdrawn⟩

theorem renderScene_splitsInto_two_textures :
    (∃ s', ((init : Renderer2D ℚ Nat).beginScene [plainCommand 0, plainCommand 1]).renderScene = some s' ∧
      SplitsInto s'.recorded [plainCommand 0, plainCommand 1]) := by
  have hone : OneBatch [plainCommand 0, plainCommand 1] := by decide
  exact (renderScene_splitsInto_iff (rfl : ([] : List (List (Item ℚ Nat))).foldlM Renderer2D.drawFrame init = some init)
    [plainCommand 0, plainCommand 1]).mpr ⟨[[plainCommand 0, plainCommand 1]], rfl, by decide, by simpa using hone⟩

end Recorded

/-! ## Too many textures -/

theorem card_textures_le {runs : List (List (RenderCommand2D K T))} (h : ∀ run ∈ runs, OneBatch run) :
    (runs.flatten.filterMap texture).toFinset.card ≤ limits.maxTextures * runs.length := by
  induction runs with
  | nil => simp
  | cons run runs ih =>
    rw [List.forall_mem_cons] at h
    have hrun := h.1.2
    have hruns := ih h.2
    rw [List.flatten_cons, List.filterMap_append, List.toFinset_append, List.length_cons, Nat.mul_succ]
    have hunion := Finset.card_union_le (run.filterMap texture).toFinset (runs.flatten.filterMap texture).toFinset
    omega

theorem card_textures_plain (count : Nat) :
    (((List.range count).map plainCommand).filterMap texture).toFinset.card = count := by
  have htextures : ((List.range count).map plainCommand).filterMap texture = List.range count := by
    rw [List.filterMap_map]
    exact List.filterMap_some
  rw [htextures, List.toFinset_card_of_nodup List.nodup_range, List.length_range]

/-- A hundred batches have room for sixteen hundred textures that occur once, and the next one
is drawn with a buffer there is not. -/
theorem renderScene_many_textures :
    ¬ ∃ s', ((init : Renderer2D ℚ Nat).beginScene ((List.range 1601).map plainCommand)).renderScene = some s' ∧
      SplitsInto s'.recorded ((List.range 1601).map plainCommand) := by
  have hlimits : ¬ 1601 ≤ limits.maxTextures * limits.maxBatchDrawCalls := by decide
  rintro ⟨s', hs', -⟩
  rw [Renderer2D.renderScene_eq] at hs'
  have hyields := (Renderer2D.idle_init.beginScene ((List.range 1601).map plainCommand)).drawFrame
    (sprites ((List.range 1601).map plainCommand))
  obtain ⟨runs, hflatten, hlength, hruns⟩ := room_sprites_iff_exists.mp (hyields.post_of_eq hs').1
  have hcard := card_textures_le hruns
  rw [hflatten, card_textures_plain] at hcard
  exact hlimits (Nat.le_trans hcard (Nat.mul_le_mul_left _ hlength))

end Lumos.Graphics.Batching
