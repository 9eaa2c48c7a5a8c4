import Lumos.Library.Slots
import Lumos.Platform.DescriptorInfos

/-!
# Descriptor sets of the OpenGL backend

A set retains infos and binds them when it is bound. Textures are bound in the updates as well,
and are what the last update with images has brought; buffers are added to those of the
updates before, until one comes with images and buffers.
-/
namespace Lumos.Graphics

open Slots

inductive TextureTarget where
  | texture2D | textureCubeMap | texture2DArray
  deriving DecidableEq

/-- What `Bind` asks a `GLUniformBuffer` for. -/
structure UniformBuffer where
  handle : Nat
  dynamic : Bool
  typeSize : Nat

/-- A binding point: the whole buffer, or the range with this offset and size. -/
structure BufferBinding where
  handle : Nat
  range : Option (Nat × Nat)

/-- The part of the state of OpenGL that is written. -/
structure Context (T : Type) where
  /-- Each unit has a texture for each target. -/
  textures : Nat × TextureTarget → Option T
  uniformBuffers : Nat → Option BufferBinding
  samplers : String → Option Nat
  uniformBlocks : String → Option Nat

structure GLDescriptorSet (T : Type) where
  imageInfos : List (ImageInfo T)
  bufferInfos : List (BufferInfo UniformBuffer)

namespace GLDescriptorSet

variable {T : Type} (target : T → TextureTarget)

/-! ## The code -/

/-- `Texture::Bind` -/
def bindTexture (context : Context T) (texture : T) (slot : Nat) : Context T :=
  { context with textures := Function.update context.textures (slot, target texture) (some texture) }

/-- The loop over the textures of an info. -/
def bindTextures : List T → Nat → Context T → Context T
  | [], _, context => context
  | texture :: textures, slot, context => bindTextures textures (slot + 1) (bindTexture target context texture slot)

def bindImage (context : Context T) (imageInfo : ImageInfo T) : Context T :=
  let context := bindTextures target imageInfo.all imageInfo.binding context
  { context with samplers := Function.update context.samplers imageInfo.name (some imageInfo.binding) }

/-- `glBindBufferBase`, and `glBindBufferRange` over it for a dynamic buffer. -/
def bufferBinding (offset : Nat) (buffer : UniformBuffer) : BufferBinding where
  handle := buffer.handle
  range := if buffer.dynamic then some (offset, buffer.typeSize) else none

def bindBuffer (offset : Nat) (context : Context T) (bufferInfo : BufferInfo UniformBuffer) : Context T :=
  { context with
    uniformBuffers := Function.update context.uniformBuffers bufferInfo.binding
      (some (bufferBinding offset bufferInfo.buffer))
    uniformBlocks := if bufferInfo.name = "" then context.uniformBlocks
      else Function.update context.uniformBlocks bufferInfo.name (some bufferInfo.binding) }

def update (state : GLDescriptorSet T × Context T) : Update T UniformBuffer → GLDescriptorSet T × Context T
  | .both imageInfos bufferInfos => (⟨imageInfos, bufferInfos⟩, imageInfos.foldl (bindImage target) state.2)
  | .images imageInfos => ({ state.1 with imageInfos }, imageInfos.foldl (bindImage target) state.2)
  | .buffers bufferInfos => ({ state.1 with bufferInfos := state.1.bufferInfos ++ bufferInfos }, state.2)

/-- `Bind` -/
def bind (set : GLDescriptorSet T) (offset : Nat) (context : Context T) : Context T :=
  set.bufferInfos.foldl (bindBuffer offset) (set.imageInfos.foldl (bindImage target) context)

/-- A new set, after the updates. -/
def updates (us : List (Update T UniformBuffer)) (context : Context T) : GLDescriptorSet T × Context T :=
  us.foldl (update target) (⟨[], []⟩, context)

/-- The context after the updates and `Bind`. -/
def bound (us : List (Update T UniformBuffer)) (offset : Nat) (context : Context T) : Context T :=
  (updates target us context).1.bind target offset (updates target us context).2

/-! ## Slots -/

/-- The image infos of all updates. -/
def suppliedImages (us : List (Update T UniformBuffer)) : List (ImageInfo T) := us.flatMap Update.imageInfos

def suppliedBuffers (us : List (Update T UniformBuffer)) : List (BufferInfo UniformBuffer) :=
  us.flatMap Update.bufferInfos

/-- The info supplied last for each binding. -/
def imageSlots (us : List (Update T UniformBuffer)) : Nat → Option (ImageInfo T) :=
  store ((suppliedImages us).map fun info => (info.binding, info)) vacant

def bufferSlots (us : List (Update T UniformBuffer)) : Nat → Option (BufferInfo UniformBuffer) :=
  store ((suppliedBuffers us).map fun info => (info.binding, info)) vacant

/-- After the updates and `Bind`, what is in the slots is bound, and the set has no two infos
for one binding. -/
structure Behaves (us : List (Update T UniformBuffer)) (offset : Nat) (context : Context T) : Prop where
  textures : ∀ b info, imageSlots us b = some info → ∀ (i : Nat) texture, info.all[i]? = some texture →
    (bound target us offset context).textures (b + i, target texture) = some texture
  buffers : ∀ b info, bufferSlots us b = some info →
    (bound target us offset context).uniformBuffers b = some (bufferBinding offset info.buffer)
  imagesOnce : ((updates target us context).1.imageInfos.map ImageInfo.binding).Nodup
  buffersOnce : ((updates target us context).1.bufferInfos.map BufferInfo.binding).Nodup

/-! ## What the updates have to look like -/

/-- The info has a texture for this unit and target. -/
def Takes (info : ImageInfo T) (cell : Nat × TextureTarget) (texture : T) : Prop :=
  ∃ i, info.all[i]? = some texture ∧ (info.binding + i, target texture) = cell

/-- The last of the later infos to have a texture for one of the units of the info, if any, has
the same texture for it. -/
def Stays (info : ImageInfo T) (after : List (ImageInfo T)) : Prop :=
  ∀ cell texture, Takes target info cell texture → ∀ between later rest texture', after = between ++ later :: rest →
    Takes target later cell texture' → (∀ other ∈ rest, ∀ texture, ¬Takes target other cell texture) →
    texture' = texture

structure Keeps (us : List (Update T UniformBuffer)) : Prop where
  images : ∀ before u after, us = before ++ u :: after → u.bringsImages → (∀ later ∈ after, ¬later.bringsImages) →
    (u.imageInfos.map ImageInfo.binding).Nodup
  buffers : ∀ before after, us = before ++ after →
    (∀ later ∈ after.tail, ∀ images buffers, later ≠ .both images buffers) →
    ((suppliedBuffers after).map BufferInfo.binding).Nodup
  kept : ∀ before images buffers after, us = before ++ .both images buffers :: after →
    ∀ info ∈ suppliedBuffers before, ∃ info' ∈ buffers ++ suppliedBuffers after, info'.binding = info.binding
  units : ∀ before info after, suppliedImages us = before ++ info :: after →
    (∀ later ∈ after, later.binding ≠ info.binding) → Stays target info after

/-! ## The textures -/

variable {target} {context : Context T} {us : List (Update T UniformBuffer)} {u : Update T UniformBuffer}
  {state : GLDescriptorSet T × Context T} {cell : Nat × TextureTarget} {texture : T} {slot offset : Nat}

/-- What an info stores in the units. -/
def unitWrites (target : T → TextureTarget) (textures : List T) (slot : Nat) : List ((Nat × TextureTarget) × T) :=
  (textures.zipIdx slot).map fun p => ((p.2, target p.1), p.1)

def imageWrites (target : T → TextureTarget) (info : ImageInfo T) : List ((Nat × TextureTarget) × T) :=
  unitWrites target info.all info.binding

theorem textures_bindTextures (textures : List T) : (bindTextures target textures slot context).textures =
    store (unitWrites target textures slot) context.textures := by
  induction textures generalizing slot context with
  | nil => rfl
  | cons t ts ih =>
    rw [bindTextures, ih]
    rfl

theorem textures_bindImages (infos : List (ImageInfo T)) : (infos.foldl (bindImage target) context).textures =
    store (infos.flatMap (imageWrites target)) context.textures := by
  induction infos generalizing context with
  | nil => rfl
  | cons info infos ih =>
    rw [List.foldl_cons, ih, List.flatMap_cons, store_append]
    congr 1
    exact textures_bindTextures info.all

/-- The textures of an info all have their own units. -/
theorem store_unitWrites (textures : List T) : store (unitWrites target textures slot) vacant cell = some texture ↔
    ∃ i, textures[i]? = some texture ∧ (slot + i, target texture) = cell := by
  induction textures generalizing slot texture with
  | nil =>
    constructor
    · intro h
      cases h
    · rintro ⟨i, hi, -⟩
      cases hi
  | cons t ts ih =>
    have hsplit : (∃ i, (t :: ts)[i]? = some texture ∧ (slot + i, target texture) = cell) ↔
        (t = texture ∧ (slot, target texture) = cell) ∨
          store (unitWrites target ts (slot + 1)) vacant cell = some texture := by
      rw [ih]
      constructor
      · rintro ⟨i, hi, hcell⟩
        cases i with
        | zero => exact .inl ⟨Option.some.inj hi, hcell⟩
        | succ i => exact .inr ⟨i, hi, by rw [← hcell, Nat.add_right_comm]; rfl⟩
      · rintro (⟨rfl, hcell⟩ | ⟨i, hi, hcell⟩)
        · exact ⟨0, rfl, hcell⟩
        · exact ⟨i + 1, hi, by rw [← hcell, Nat.add_right_comm]; rfl⟩
    have hlater : ∀ texture', store (unitWrites target ts (slot + 1)) vacant cell = some texture' →
        cell ≠ (slot, target t) := by
      rintro texture' hstore rfl
      obtain ⟨i, -, hcell⟩ := ih.mp hstore
      have hunit : slot + 1 + i = slot := congrArg Prod.fst hcell
      omega
    rw [hsplit, unitWrites, List.zipIdx_cons, List.map_cons, store_cons, ← unitWrites]
    cases hrest : store (unitWrites target ts (slot + 1)) vacant cell with
    | some texture' =>
      rw [Option.some_or]
      constructor
      · exact .inr
      · rintro (⟨rfl, hcell⟩ | h)
        · exact absurd hcell.symm (hlater texture' hrest)
        · exact h
    | none =>
      rw [Option.none_or, Option.ite_none_right_eq_some, or_iff_left (Option.some_ne_none _).symm]
      constructor
      · rintro ⟨hcell, htexture⟩
        cases htexture
        exact ⟨rfl, hcell.symm⟩
      · rintro ⟨rfl, hcell⟩
        exact ⟨hcell.symm, rfl⟩

theorem store_imageWrites {info : ImageInfo T} :
    store (imageWrites target info) vacant cell = some texture ↔ Takes target info cell texture :=
  store_unitWrites info.all

theorem store_imageWrites_eq_none {info : ImageInfo T} :
    store (imageWrites target info) vacant cell = none ↔ ∀ texture, ¬Takes target info cell texture := by
  rw [Option.eq_none_iff_forall_ne_some]
  simp only [← store_imageWrites, ne_eq]

/-- Which texture a unit has in the end. -/
theorem stays_iff (before : List (ImageInfo T)) {after : List (ImageInfo T)} {info : ImageInfo T} :
    Stays target info after ↔ ∀ cell texture, Takes target info cell texture →
      store ((before ++ info :: after).flatMap (imageWrites target)) vacant cell = some texture := by
  refine forall_congr' fun cell => forall_congr' fun texture => imp_congr_right fun htakes => ?_
  obtain hnone | ⟨between, later, rest, rfl, ⟨texture', htakes'⟩, hrest⟩ :=
    exists_last (fun later => ∃ texture, Takes target later cell texture) after
  · rw [store_flatMap (store_imageWrites.mpr htakes) fun later hlater =>
      store_imageWrites_eq_none.mpr fun texture' h => hnone later hlater ⟨texture', h⟩]
    refine iff_of_true ?_ rfl
    intro between later rest texture' hafter htakes'
    exact absurd ⟨texture', htakes'⟩ (hnone later (hafter ▸ List.mem_append_right between List.mem_cons_self))
  · have hstore : store ((before ++ info :: (between ++ later :: rest)).flatMap (imageWrites target)) vacant cell =
        some texture' := by
      have hsplit : before ++ info :: (between ++ later :: rest) = (before ++ info :: between) ++ later :: rest := by
        simp
      rw [hsplit, store_flatMap (store_imageWrites.mpr htakes') fun other hother =>
        store_imageWrites_eq_none.mpr fun texture h => hrest other hother ⟨texture, h⟩]
    constructor
    · intro h
      have hsame := h between later rest texture' rfl htakes' fun other hother texture h =>
        hrest other hother ⟨texture, h⟩
      rw [hstore, hsame]
    · intro h between' later' rest' texture'' hafter htakes'' hrest'
      have hsplit : before ++ info :: (between ++ later :: rest) =
          (before ++ info :: between') ++ later' :: rest' := by
        rw [hafter]
        simp
      rw [hsplit, store_flatMap (store_imageWrites.mpr htakes'') fun other hother =>
        store_imageWrites_eq_none.mpr (hrest' other hother)] at h
      exact Option.some.inj h

/-! ## What the set retains -/

theorem suppliedImages_cons : suppliedImages (u :: us) = u.imageInfos ++ suppliedImages us := rfl

theorem suppliedBuffers_cons : suppliedBuffers (u :: us) = u.bufferInfos ++ suppliedBuffers us := rfl

theorem foldl_update_textures (us : List (Update T UniformBuffer)) (state : GLDescriptorSet T × Context T) :
    (us.foldl (update target) state).2.textures =
      store ((suppliedImages us).flatMap (imageWrites target)) state.2.textures := by
  induction us generalizing state with
  | nil => rfl
  | cons u us ih =>
    have hstep : (update target state u).2.textures =
        store (u.imageInfos.flatMap (imageWrites target)) state.2.textures := by
      cases u with
      | images infos => exact textures_bindImages infos
      | buffers infos => rfl
      | both infos _ => exact textures_bindImages infos
    rw [List.foldl_cons, ih, hstep, suppliedImages_cons, List.flatMap_append, store_append]

theorem foldl_bindImage_uniformBuffers (infos : List (ImageInfo T)) (context : Context T) :
    (infos.foldl (bindImage target) context).uniformBuffers = context.uniformBuffers := by
  have htextures : ∀ (textures : List T) (slot : Nat) (context : Context T),
      (bindTextures target textures slot context).uniformBuffers = context.uniformBuffers := by
    intro textures
    induction textures with
    | nil => exact fun _ _ => rfl
    | cons t ts ih => exact fun slot context => ih (slot + 1) _
  induction infos generalizing context with
  | nil => rfl
  | cons info infos ih =>
    rw [List.foldl_cons, ih]
    exact htextures info.all info.binding context

theorem foldl_update_uniformBuffers (us : List (Update T UniformBuffer)) (state : GLDescriptorSet T × Context T) :
    (us.foldl (update target) state).2.uniformBuffers = state.2.uniformBuffers := by
  induction us generalizing state with
  | nil => rfl
  | cons u us ih =>
    rw [List.foldl_cons, ih]
    cases u with
    | images infos => exact foldl_bindImage_uniformBuffers infos state.2
    | buffers infos => rfl
    | both infos _ => exact foldl_bindImage_uniformBuffers infos state.2

variable (target) in
/-- Images stay until the next update that has images. -/
theorem foldl_update_imageInfos (h : ∀ later ∈ us, ¬later.bringsImages) (state : GLDescriptorSet T × Context T) :
    (us.foldl (update target) state).1.imageInfos = state.1.imageInfos ∧ suppliedImages us = [] := by
  induction us generalizing state with
  | nil => exact ⟨rfl, rfl⟩
  | cons u us ih =>
    obtain ⟨hu, hus⟩ := List.forall_mem_cons.mp h
    cases u with
    | images infos => exact absurd trivial hu
    | both infos _ => exact absurd trivial hu
    | buffers infos => exact ih hus _

theorem update_imageInfos (h : u.bringsImages) : (update target state u).1.imageInfos = u.imageInfos := by
  cases u with
  | images infos => rfl
  | buffers infos => exact h.elim
  | both infos _ => rfl

variable (target context) in
/-- The images are those of the last update that has images. -/
theorem imageInfos_of_last (before : List (Update T UniformBuffer))
    {after : List (Update T UniformBuffer)} (hu : u.bringsImages)
    (hafter : ∀ later ∈ after, ¬later.bringsImages) :
    (updates target (before ++ u :: after) context).1.imageInfos = u.imageInfos ∧
      suppliedImages (before ++ u :: after) = suppliedImages before ++ u.imageInfos := by
  obtain ⟨hinfos, hsupplied⟩ := foldl_update_imageInfos target hafter
    (update target (updates target before context) u)
  constructor
  · rw [updates, List.foldl_append, List.foldl_cons]
    exact hinfos.trans (update_imageInfos hu)
  · rw [suppliedImages, List.flatMap_append, List.flatMap_cons]
    exact congrArg (fun infos => suppliedImages before ++ (u.imageInfos ++ infos)) hsupplied |>.trans (by simp)

/-- Images are not lost by the time of `Bind`: what it binds once more has been bound last. -/
theorem bound_textures (us : List (Update T UniformBuffer)) : (bound target us offset context).textures =
      store ((suppliedImages us).flatMap (imageWrites target)) context.textures := by
  have hbuffers : ∀ (infos : List (BufferInfo UniformBuffer)) (context : Context T),
      (infos.foldl (bindBuffer offset) context).textures = context.textures := by
    intro infos
    induction infos with
    | nil => exact fun _ => rfl
    | cons info infos ih => exact fun context => ih _
  rw [bound, bind, hbuffers, textures_bindImages]
  have htextures : (updates target us context).2.textures =
      store ((suppliedImages us).flatMap (imageWrites target)) context.textures := foldl_update_textures us _
  rw [htextures]
  obtain hnone | ⟨before, u, after, rfl, hu, hafter⟩ := exists_last Update.bringsImages us
  · obtain ⟨hinfos, -⟩ := foldl_update_imageInfos target hnone (⟨[], []⟩, context)
    rw [updates, hinfos]
    rfl
  · obtain ⟨hinfos, hsupplied⟩ := imageInfos_of_last target context _ hu hafter
    rw [hinfos, hsupplied, List.flatMap_append, store_again]

/-- Buffers are added until the next update with images and buffers. -/
theorem foldl_update_bufferInfos (h : ∀ later ∈ us, ∀ images buffers, later ≠ .both images buffers)
    (state : GLDescriptorSet T × Context T) :
    (us.foldl (update target) state).1.bufferInfos = state.1.bufferInfos ++ suppliedBuffers us := by
  induction us generalizing state with
  | nil => exact (List.append_nil _).symm
  | cons u us ih =>
    obtain ⟨hu, hus⟩ := List.forall_mem_cons.mp h
    rw [List.foldl_cons, ih hus, suppliedBuffers_cons]
    cases u with
    | images infos => rfl
    | buffers infos => exact List.append_assoc ..
    | both images buffers => exact absurd rfl (hu images buffers)

/-- What the set has supplies a suffix of the updates, before which nothing remains. -/
theorem exists_suffix (us : List (Update T UniformBuffer)) : ∃ before after, us = before ++ after ∧
    (∀ later ∈ after.tail, ∀ images buffers, later ≠ .both images buffers) ∧
    (before = [] ∨ ∃ images buffers rest, after = .both images buffers :: rest) ∧
    ∀ context : Context T, (updates target us context).1.bufferInfos = suppliedBuffers after := by
  obtain hnone | ⟨before, u, rest, rfl, ⟨images, buffers, rfl⟩, hrest⟩ :=
    exists_last (fun u => ∃ images buffers, u = Update.both images buffers) us
  · have hnot : ∀ later ∈ us, ∀ images buffers, later ≠ .both images buffers := fun later hlater images buffers h =>
      hnone later hlater ⟨images, buffers, h⟩
    exact ⟨[], us, rfl, fun later hlater => hnot later (List.mem_of_mem_tail hlater), .inl rfl,
      fun context => foldl_update_bufferInfos hnot _⟩
  · have hnot : ∀ later ∈ rest, ∀ images buffers, later ≠ .both images buffers := fun later hlater images buffers h =>
      hrest later hlater ⟨images, buffers, h⟩
    refine ⟨before, .both images buffers :: rest, rfl, hnot, .inr ⟨images, buffers, rest, rfl⟩, fun context => ?_⟩
    rw [updates, List.foldl_append, List.foldl_cons, foldl_update_bufferInfos hnot]
    rfl

theorem bound_uniformBuffers (us : List (Update T UniformBuffer)) :
    (bound target us offset context).uniformBuffers = store ((updates target us context).1.bufferInfos.map fun info =>
        (info.binding, bufferBinding offset info.buffer)) context.uniformBuffers := by
  have hbuffers : ∀ (infos : List (BufferInfo UniformBuffer)) (context : Context T),
      (infos.foldl (bindBuffer offset) context).uniformBuffers =
        store (infos.map fun info => (info.binding, bufferBinding offset info.buffer)) context.uniformBuffers := by
    intro infos
    induction infos with
    | nil => exact fun _ => rfl
    | cons info infos ih => exact fun context => ih _
  have hsame : (updates target us context).2.uniformBuffers = context.uniformBuffers :=
    foldl_update_uniformBuffers us _
  rw [bound, bind, hbuffers, foldl_bindImage_uniformBuffers, hsame]

/-! ## Which updates behave as slots -/

/-- The textures are bound just when they stay. -/
theorem textures_iff (us : List (Update T UniformBuffer)) (offset : Nat) (context : Context T) :
    (∀ b info, imageSlots us b = some info → ∀ (i : Nat) texture, info.all[i]? = some texture →
      (bound target us offset context).textures (b + i, target texture) = some texture) ↔
    ∀ before info after, suppliedImages us = before ++ info :: after →
      (∀ later ∈ after, later.binding ≠ info.binding) → Stays target info after := by
  have hstore : ∀ info cell texture, info ∈ suppliedImages us → Takes target info cell texture →
      store ((suppliedImages us).flatMap (imageWrites target)) context.textures cell =
        store ((suppliedImages us).flatMap (imageWrites target)) vacant cell := by
    intro info cell texture hmem htakes
    rw [store_apply]
    cases hcell : store ((suppliedImages us).flatMap (imageWrites target)) vacant cell with
    | some texture' => rfl
    | none =>
      obtain ⟨before, after, heq, -⟩ := store_eq_some.mp (store_imageWrites.mpr htakes)
      refine absurd rfl (store_eq_none.mp hcell (cell, texture) (List.mem_flatMap.mpr ⟨info, hmem, ?_⟩))
      rw [heq]
      exact List.mem_append_right before List.mem_cons_self
  rw [bound_textures]
  constructor
  · intro h before info after hsupplied hlater
    rw [stays_iff before, ← hsupplied]
    rintro cell texture ⟨i, htexture, rfl⟩
    have hmem : info ∈ suppliedImages us := hsupplied ▸ List.mem_append_right before List.mem_cons_self
    rw [← hstore info _ texture hmem ⟨i, htexture, rfl⟩]
    exact h _ info (store_key_eq_some.mpr ⟨rfl, before, after, hsupplied, hlater⟩) i texture htexture
  · intro h b info hslot i texture htexture
    obtain ⟨rfl, before, after, hsupplied, hlater⟩ := store_key_eq_some.mp hslot
    have hmem : info ∈ suppliedImages us := hsupplied ▸ List.mem_append_right before List.mem_cons_self
    rw [hstore info _ texture hmem ⟨i, htexture, rfl⟩, hsupplied]
    exact (stays_iff before).mp (h before info after hsupplied hlater) _ texture ⟨i, htexture, rfl⟩

theorem bufferSlots_append (before after : List (Update T UniformBuffer)) (b : Nat) :
    bufferSlots (before ++ after) b = (bufferSlots after b).or (bufferSlots before b) := by
  rw [bufferSlots, suppliedBuffers, List.flatMap_append, List.map_append, store_append_apply]
  rfl

theorem bufferSlots_eq_none {b : Nat} : bufferSlots us b = none ↔ ∀ info ∈ suppliedBuffers us, info.binding ≠ b := by
  rw [bufferSlots, store_eq_none, List.forall_mem_map]

/-- A buffer is bound if the set has kept an info for its binding. -/
theorem uniformBuffers_eq {after : List (Update T UniformBuffer)} {b : Nat}
    (h : (updates target us context).1.bufferInfos = suppliedBuffers after) :
    (bound target us offset context).uniformBuffers b =
      ((bufferSlots after b).map fun info => bufferBinding offset info.buffer).or (context.uniformBuffers b) := by
  rw [bound_uniformBuffers, h, store_apply, bufferSlots, ← store_map, List.map_map]
  rfl

theorem binding_of_bufferSlots {b : Nat} {info : BufferInfo UniformBuffer} (h : bufferSlots us b = some info) :
    info ∈ suppliedBuffers us ∧ info.binding = b := by
  obtain ⟨hbinding, before, after, hsupplied, -⟩ := store_key_eq_some.mp h
  exact ⟨hsupplied ▸ List.mem_append_right before List.mem_cons_self, hbinding⟩

/-- The set has nothing that was not given to it. -/
theorem mem_foldl_update {info : BufferInfo UniformBuffer}
    (h : info ∈ (us.foldl (update target) state).1.bufferInfos) :
    info ∈ state.1.bufferInfos ∨ info ∈ suppliedBuffers us := by
  induction us generalizing state with
  | nil => exact .inl h
  | cons u us ih =>
    rw [suppliedBuffers_cons, List.mem_append]
    obtain hbefore | hlater := ih h
    · cases u with
      | images infos => exact .inl hbefore
      | buffers infos => exact (List.mem_append.mp hbefore).imp_right .inl
      | both images buffers => exact .inr (.inl hbefore)
    · exact .inr (.inr hlater)

variable (target context) in
/-- The set still has what came with the last update of both kinds, and after it. -/
theorem bufferInfos_suffix (before : List (Update T UniformBuffer)) {after : List (Update T UniformBuffer)}
    (h : ∀ later ∈ after.tail, ∀ images buffers, later ≠ .both images buffers) :
    ∃ earlier, (updates target (before ++ after) context).1.bufferInfos = earlier ++ suppliedBuffers after := by
  cases after with
  | nil => exact ⟨_, (List.append_nil _).symm⟩
  | cons u rest =>
    have hrest : ∀ later ∈ rest, ∀ images buffers, later ≠ .both images buffers := h
    rw [updates, List.foldl_append, List.foldl_cons, foldl_update_bufferInfos hrest, suppliedBuffers_cons]
    cases u with
    | images infos => exact ⟨_, rfl⟩
    | buffers infos => exact ⟨_, List.append_assoc ..⟩
    | both images buffers => exact ⟨[], rfl⟩

theorem nodup_of_behaves (h : Behaves target us offset context) {before after : List (Update T UniformBuffer)}
    (hus : us = before ++ after) (hafter : ∀ later ∈ after.tail, ∀ images buffers, later ≠ .both images buffers) :
    ((suppliedBuffers after).map BufferInfo.binding).Nodup := by
  subst hus
  obtain ⟨earlier, hearlier⟩ := bufferInfos_suffix target context before hafter
  have honce := h.buffersOnce
  rw [hearlier, List.map_append] at honce
  exact (List.nodup_append.mp honce).2.1

theorem kept_of_behaves (h : ∀ context, Behaves target us offset context)
    {before after : List (Update T UniformBuffer)} {images : List (ImageInfo T)}
    {buffers : List (BufferInfo UniformBuffer)} (hus : us = before ++ .both images buffers :: after)
    {info : BufferInfo UniformBuffer} (hinfo : info ∈ suppliedBuffers before) :
    ∃ info' ∈ buffers ++ suppliedBuffers after, info'.binding = info.binding := by
  have hslot : bufferSlots us info.binding ≠ none := by
    intro hnone
    refine bufferSlots_eq_none.mp hnone info ?_ rfl
    rw [hus, suppliedBuffers, List.flatMap_append]
    exact List.mem_append_left _ hinfo
  obtain ⟨latest, hlatest⟩ := Option.ne_none_iff_exists'.mp hslot
  have hbound := (h ⟨vacant, vacant, vacant, vacant⟩).buffers _ latest hlatest
  rw [bound_uniformBuffers] at hbound
  obtain ⟨earlier, later, hretained, -⟩ := store_eq_some.mp hbound
  have hmem : (info.binding, bufferBinding offset latest.buffer) ∈ earlier ++ _ :: later :=
    List.mem_append_right earlier List.mem_cons_self
  rw [← hretained] at hmem
  obtain ⟨info', hinfo', heq⟩ := List.mem_map.mp hmem
  refine ⟨info', ?_, congrArg Prod.fst heq⟩
  rw [hus, updates, List.foldl_append, List.foldl_cons] at hinfo'
  exact List.mem_append.mpr (mem_foldl_update hinfo')

/-- The updates after which all is bound, from any context, and nothing is retained twice. -/
theorem behaves_iff (target : T → TextureTarget) (us : List (Update T UniformBuffer)) :
    (∀ offset context, Behaves target us offset context) ↔ Keeps target us := by
  constructor
  · intro h
    constructor
    · intro before u after hus hu hafter
      subst hus
      have honce := (h 0 ⟨vacant, vacant, vacant, vacant⟩).imagesOnce
      rw [(imageInfos_of_last target _ _ hu hafter).1] at honce
      exact honce
    · exact fun before after => nodup_of_behaves (h 0 ⟨vacant, vacant, vacant, vacant⟩)
    · exact fun before images buffers after hus info hinfo => kept_of_behaves (h 0) hus hinfo
    · exact (textures_iff us 0 ⟨vacant, vacant, vacant, vacant⟩).mp (h 0 _).textures
  · intro h offset context
    obtain ⟨before, after, hus, hafter, hstart, hretained⟩ := exists_suffix us
    constructor
    · exact (textures_iff us offset context).mpr h.units
    · intro b info hslot
      have hsuffix : bufferSlots after b = some info := by
        obtain rfl | ⟨images, buffers, rest, rfl⟩ := hstart
        · rw [hus] at hslot
          exact hslot
        · rw [hus, bufferSlots_append] at hslot
          cases hafterSlot : bufferSlots (.both images buffers :: rest) b with
          | some info' =>
            rw [hafterSlot] at hslot
            exact hslot
          | none =>
            rw [hafterSlot, Option.none_or] at hslot
            obtain ⟨hmem, rfl⟩ := binding_of_bufferSlots hslot
            obtain ⟨info', hinfo', hbinding⟩ := h.kept before images buffers rest hus info hmem
            exact absurd hbinding (bufferSlots_eq_none.mp hafterSlot info' hinfo')
      exact (uniformBuffers_eq (hretained context)).trans (by rw [hsuffix]; rfl)
    · obtain hnone | ⟨earlier, u, later, rfl, hu, hlater⟩ := exists_last Update.bringsImages us
      · rw [updates, (foldl_update_imageInfos target hnone _).1]
        exact List.nodup_nil
      · rw [(imageInfos_of_last target _ _ hu hlater).1]
        exact h.images earlier u later rfl hu hlater
    · rw [hretained context]
      exact h.buffers before after hus hafter

/-- A buffer supplied in every frame is in the set once for each. -/
theorem sameBuffer_retained : ¬Behaves (T := Nat) (fun _ => .texture2D)
    [.buffers [⟨⟨1, false, 0⟩, 0, 64, 0, "camera", .uniformBuffer⟩],
      .buffers [⟨⟨1, false, 0⟩, 0, 64, 0, "camera", .uniformBuffer⟩]] 0 ⟨vacant, vacant, vacant, vacant⟩ :=
  fun h => absurd h.buffersOnce (by decide)

end GLDescriptorSet

end Lumos.Graphics
