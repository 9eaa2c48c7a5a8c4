import Lumos.Library.Caches

/-!
# The caches of pipelines, render passes and framebuffers

`Get` looks for an object under the hash of its description and creates one where there is
none. The objects are found by the hash alone: an object is handed out for every description
with the hash of the one it was created from, until its entry is removed.
-/
namespace Lumos.Graphics.ObjectCache

open KeyedCache (Event)

/-! ## Descriptions -/

inductive CullMode where
  | front | back | frontAndBack | none
  deriving DecidableEq

inductive PolygonMode where
  | fill | line | point
  deriving DecidableEq

inductive DrawType where
  | point | triangle | lines
  deriving DecidableEq

inductive Format where
  | r32g32b32a32Uint | r32g32b32Uint | r32g32Uint | r32Uint | r8Uint
  | r32g32b32a32Int | r32g32b32Int | r32g32Int | r32Int
  | r32g32b32a32Float | r32g32b32Float | r32g32Float | r32Float
  deriving DecidableEq

inductive TextureFormat where
  | none | r8 | rg8 | rgb8 | rgba8 | rgb16 | rgba16 | rgb32 | rgba32 | rgb | rgba | depth | stencil | depthStencil
  deriving DecidableEq

inductive TextureType where
  | colour | depth | depthArray | cube | other
  deriving DecidableEq

/-- An address. -/
abbrev Pointer := UInt64

structure BufferElement where
  name : String
  format : Format
  offset : UInt32
  normalized : Bool
  deriving DecidableEq

structure BufferLayout where
  size : UInt32
  layout : List BufferElement
  deriving DecidableEq

structure PipelineInfo where
  renderpass : Pointer
  shader : Pointer
  vertexBufferLayout : BufferLayout
  cullMode : CullMode
  polygonMode : PolygonMode
  drawType : DrawType
  transparencyEnabled : Bool
  depthBiasEnabled : Bool
  deriving DecidableEq

structure AttachmentInfo where
  textureType : TextureType
  format : TextureFormat
  deriving DecidableEq

/-- `attachmentCount` is the length of the array. -/
structure RenderPassInfo where
  textureType : List AttachmentInfo
  clear : Bool
  deriving DecidableEq

/-- `attachmentCount` is the length of the two arrays, which are given entry by entry. -/
structure FramebufferInfo where
  width : UInt32
  height : UInt32
  layer : UInt32
  screenFBO : Bool
  attachments : List (TextureType × Pointer)
  renderPass : Pointer
  deriving DecidableEq

/-! ## Hashes -/

/-- `std::hash` of each type that is hashed. -/
structure StdHash where
  bool : Bool → UInt64
  int : Int32 → UInt64
  uint32 : UInt32 → UInt64
  size : UInt64 → UInt64
  pointer : Pointer → UInt64
  string : String → UInt64
  cullMode : CullMode → UInt64
  polygonMode : PolygonMode → UInt64
  drawType : DrawType → UInt64
  format : Format → UInt64
  textureFormat : TextureFormat → UInt64
  textureType : TextureType → UInt64

/-- Of the hashes of the values. -/
def hashCombine (seed : UInt64) : List UInt64 → UInt64
  | [] => seed
  | v :: rest => hashCombine (seed ^^^ (v + 0x9e3779b9 + (seed <<< (6 : UInt64)) + (seed >>> (2 : UInt64)))) rest

def PipelineInfo.hash (std : StdHash) (pipelineInfo : PipelineInfo) : UInt64 :=
  let vertexLayout := pipelineInfo.vertexBufferLayout.layout
  let hash := hashCombine 0
    [std.pointer pipelineInfo.shader, std.cullMode pipelineInfo.cullMode, std.bool pipelineInfo.depthBiasEnabled,
      std.drawType pipelineInfo.drawType, std.polygonMode pipelineInfo.polygonMode,
      std.bool pipelineInfo.transparencyEnabled, std.pointer pipelineInfo.renderpass]
  let hash := hashCombine hash
    [std.uint32 pipelineInfo.vertexBufferLayout.size, std.size (UInt64.ofNat vertexLayout.length)]
  vertexLayout.foldl
    (fun hash layout => hashCombine hash
      [std.string layout.name, std.format layout.format, std.bool layout.normalized, std.uint32 layout.offset])
    hash

def RenderPassInfo.hash (std : StdHash) (renderPassInfo : RenderPassInfo) : UInt64 :=
  let hash := hashCombine 0 [std.int (Int32.ofNat renderPassInfo.textureType.length), std.bool renderPassInfo.clear]
  renderPassInfo.textureType.foldl
    (fun hash attachment => hashCombine hash
      [std.textureFormat attachment.format, std.textureType attachment.textureType])
    hash

def FramebufferInfo.hash (std : StdHash) (framebufferInfo : FramebufferInfo) : UInt64 :=
  let hash := hashCombine 0
    [std.uint32 (UInt32.ofNat framebufferInfo.attachments.length), std.uint32 framebufferInfo.width,
      std.uint32 framebufferInfo.height, std.uint32 framebufferInfo.layer, std.pointer framebufferInfo.renderPass,
      std.bool framebufferInfo.screenFBO]
  framebufferInfo.attachments.foldl
    (fun hash attachment => hashCombine hash [std.textureType attachment.1, std.pointer attachment.2])
    hash

/-! ## The caches -/

variable {δ : Type}

/-- A pipeline, a render pass or a framebuffer. -/
structure Object (δ : Type) where
  id : Nat
  createdFrom : δ

structure Cache (δ : Type) where
  /-- No entry, or a null one, at `none`. -/
  entries : UInt64 → Option (Object δ)
  /-- How many objects have been created. -/
  created : Nat
  /-- How many handles to an object there are outside of the cache. -/
  held : Nat → Nat

namespace Cache

def empty : Cache δ := ⟨fun _ => none, 0, fun _ => 0⟩

def hold (cache : Cache δ) (id : Nat) : Cache δ :=
  { cache with held := fun i => if i = id then cache.held i + 1 else cache.held i }

def drop (cache : Cache δ) (id : Nat) : Cache δ :=
  { cache with held := fun i => if i = id then cache.held i - 1 else cache.held i }

/-- What `Get` returns, and what it leaves. -/
def get (hash : δ → UInt64) (cache : Cache δ) (info : δ) : Object δ × Cache δ :=
  match cache.entries (hash info) with
  | some found => (found, cache.hold found.id)
  | none =>
    let object : Object δ := ⟨cache.created, info⟩
    let entries := fun key => if key = hash info then some object else cache.entries key
    (object, { cache with entries := entries, created := cache.created + 1 }.hold object.id)

def clearCache (cache : Cache δ) : Cache δ := { cache with entries := fun _ => none }

/-- The cache has the only handle to the object: its count, which is of 32 bits, is one. -/
def unused (cache : Cache δ) (key : UInt64) : Bool :=
  match cache.entries key with
  | some object => (cache.held object.id + 1) % 2 ^ 32 = 1
  | none => false

def deleteUnusedCache (cache : Cache δ) : Cache δ :=
  { cache with entries := fun key => if cache.unused key then none else cache.entries key }

end Cache

/-- What happens to a cache: `Get`, a copy and a drop of a handle, and the two ways to clear it. -/
inductive Call (δ : Type) where
  | get (info : δ)
  | copy (id : Nat)
  | release (id : Nat)
  | clearCache
  | deleteUnusedCache

def perform (hash : δ → UInt64) (cache : Cache δ) : Call δ → Cache δ
  | .get info => (cache.get hash info).2
  | .copy id => cache.hold id
  | .release id => cache.drop id
  | .clearCache => cache.clearCache
  | .deleteUnusedCache => cache.deleteUnusedCache

/-- Every `Get` returns an object that was created from what was asked for. -/
def Faithful (hash : δ → UInt64) : Cache δ → List (Call δ) → Prop
  | _, [] => True
  | cache, call :: calls =>
    (∀ info, call = .get info → (cache.get hash info).1.createdFrom = info) ∧
      Faithful hash (perform hash cache call) calls

/-! ## What is asked for, and which entries are removed -/

def events (cache : Cache δ) : Call δ → List (Event δ UInt64)
  | .get info => [.ask info]
  | .copy _ => []
  | .release _ => []
  | .clearCache => [.forget fun _ => true]
  | .deleteUnusedCache => [.forget cache.unused]

def history (hash : δ → UInt64) : Cache δ → List (Call δ) → List (Event δ UInt64)
  | _, [] => []
  | cache, call :: calls => events cache call ++ history hash (perform hash cache call) calls

/-- What the objects in the cache were created from. -/
def Cache.origins (cache : Cache δ) : KeyedCache.Cache δ UInt64 :=
  fun key => (cache.entries key).map Object.createdFrom

section Simulation

variable (hash : δ → UInt64) (cache : Cache δ)

theorem origins_hold (id : Nat) : (cache.hold id).origins = cache.origins := rfl

theorem origins_drop (id : Nat) : (cache.drop id).origins = cache.origins := rfl

theorem answer_origins (info : δ) :
    KeyedCache.answer hash cache.origins info = (cache.get hash info).1.createdFrom := by
  cases h : cache.entries (hash info) <;> simp [KeyedCache.answer, Cache.origins, Cache.get, h]

theorem origins_get (info : δ) :
    (cache.get hash info).2.origins = KeyedCache.step hash cache.origins (.ask info) := by
  funext key
  by_cases hkey : key = hash info
  · subst hkey
    rw [KeyedCache.step_ask_same, answer_origins]
    cases h : cache.entries (hash info) <;> simp [Cache.origins, Cache.get, Cache.hold, h]
  · rw [KeyedCache.step_ask_other hkey]
    cases h : cache.entries (hash info) <;> simp [Cache.origins, Cache.get, Cache.hold, h, hkey]

theorem origins_clearCache :
    cache.clearCache.origins = KeyedCache.step hash cache.origins (.forget fun _ => true) := rfl

theorem origins_deleteUnusedCache :
    cache.deleteUnusedCache.origins = KeyedCache.step hash cache.origins (.forget cache.unused) := by
  funext key
  cases h : cache.unused key <;> simp [Cache.origins, Cache.deleteUnusedCache, KeyedCache.step, h]

end Simulation

variable {hash : δ → UInt64}

/-- The caches hand out what the abstract cache does. -/
theorem faithful_iff_right {cache : Cache δ} (calls : List (Call δ)) :
    Faithful hash cache calls ↔ KeyedCache.Right hash cache.origins (history hash cache calls) := by
  induction calls generalizing cache with
  | nil => rfl
  | cons call calls ih =>
    rw [Faithful, ih, history]
    cases call with
    | get info =>
      simp only [Call.get.injEq, forall_eq', events, List.singleton_append, KeyedCache.Right, perform, origins_get,
        answer_origins]
    | copy id =>
      simp only [reduceCtorEq, false_implies, implies_true, true_and, events, List.nil_append, perform, origins_hold]
    | release id =>
      simp only [reduceCtorEq, false_implies, implies_true, true_and, events, List.nil_append, perform, origins_drop]
    | clearCache =>
      simp only [reduceCtorEq, false_implies, implies_true, true_and, events, List.singleton_append,
        KeyedCache.Right, perform, origins_clearCache hash]
    | deleteUnusedCache =>
      simp only [reduceCtorEq, false_implies, implies_true, true_and, events, List.singleton_append,
        KeyedCache.Right, perform, origins_deleteUnusedCache hash]

theorem faithful_iff_apart (calls : List (Call δ)) :
    Faithful hash .empty calls ↔ KeyedCache.Apart hash (history hash .empty calls) := by
  rw [faithful_iff_right, ← KeyedCache.right_iff_apart]
  rfl

/-- Of all three caches: what is returned was created from what was asked for exactly when,
between two different descriptions with one hash, the entry is removed. -/
theorem get_faithful_iff (std : StdHash) :
    (∀ calls : List (Call PipelineInfo), Faithful (·.hash std) .empty calls ↔
      KeyedCache.Apart (·.hash std) (history (·.hash std) .empty calls)) ∧
    (∀ calls : List (Call RenderPassInfo), Faithful (·.hash std) .empty calls ↔
      KeyedCache.Apart (·.hash std) (history (·.hash std) .empty calls)) ∧
    ∀ calls : List (Call FramebufferInfo), Faithful (·.hash std) .empty calls ↔
      KeyedCache.Apart (·.hash std) (history (·.hash std) .empty calls) :=
  ⟨faithful_iff_apart, faithful_iff_apart, faithful_iff_apart⟩

/-! ## Two framebuffers with one hash -/

/-- Integers, enumerations and addresses are their own hashes. -/
def integerHash (string : String → UInt64) : StdHash where
  bool := Bool.toUInt64
  int := fun i => i.toInt64.toUInt64
  uint32 := UInt32.toUInt64
  size := id
  pointer := id
  string := string
  cullMode := fun mode => UInt64.ofNat mode.ctorIdx
  polygonMode := fun mode => UInt64.ofNat mode.ctorIdx
  drawType := fun type => UInt64.ofNat type.ctorIdx
  format := fun format => UInt64.ofNat format.ctorIdx
  textureFormat := fun format => UInt64.ofNat format.ctorIdx
  textureType := fun type => UInt64.ofNat type.ctorIdx

/-- A framebuffer of this size with one colour attachment. -/
def colourTarget (width height : UInt32) : FramebufferInfo := ⟨width, height, 0, false, [(.colour, 4096)], 8192⟩

/-- Asked for a framebuffer of 1279 by 785 the cache returns one of 1280 by 720. -/
theorem get_other_size :
    ¬ Faithful (FramebufferInfo.hash (integerHash fun _ => 0)) .empty
      [.get (colourTarget 1280 720), .get (colourTarget 1279 785)] := by
  rw [faithful_iff_apart]
  intro h
  exact absurd (h.1.1 (by decide +kernel)) (by decide)

end Lumos.Graphics.ObjectCache
