import Mathlib.Data.List.Forall2
import Lumos.Library.Writes

/-!
# Materials of glTF models

A material names textures by index, a texture names its image and its sampler by index, and
`LoadMaterials` keeps a third list, of the textures it has made. Textures without a source are not in it.
-/
namespace Lumos.Graphics.GLTF

open LastWrite

/-! ## What tinygltf hands over -/

structure Image where
  width : Int
  height : Int
  image : List UInt8
  deriving DecidableEq

structure Sampler where
  minFilter : Int
  magFilter : Int
  wrapS : Int

/-- Source and sampler are -1 where there is none. -/
structure Texture where
  source : Int
  sampler : Int

/-- A parameter of a material, with the number under `index` in it. -/
structure Parameter where
  index : Option Int

def Parameter.textureIndex (p : Parameter) : Int := p.index.getD (-1)

/-- JSON, of which only objects and integers matter here. -/
inductive Value where
  | null
  | int (i : Int)
  | object (members : List (String × Value))
  | other

def Value.has : Value → String → Bool
  | .object members, key => (members.lookup key).isSome
  | _, _ => false

/-- Nothing for what is not an object, and a null value for a key that is not there. -/
def Value.get : Value → String → Option Value
  | .object members, key => some ((members.lookup key).getD .null)
  | _, _ => none

/-- The integer in it, which is zero in the null value and not initialised in the others. -/
def Value.getInt : Value → Option Int
  | .int i => some i
  | .null => some 0
  | _ => none

structure Material where
  values : List (String × Parameter)
  additionalValues : List (String × Parameter)
  extensions : List (String × Value)

structure Model where
  textures : List Texture
  images : List Image
  samplers : List Sampler
  materials : List Material

/-! ## Textures -/

inductive TextureWrap where
  | NONE | REPEAT | CLAMP | MIRRORED_REPEAT | CLAMP_TO_EDGE | CLAMP_TO_BORDER
  deriving DecidableEq

inductive TextureFilter where
  | NONE | LINEAR | NEAREST
  deriving DecidableEq

/-- The format is always the same here. -/
structure TextureParameters where
  minFilter : TextureFilter := .NEAREST
  magFilter : TextureFilter := .NEAREST
  wrap : TextureWrap := .REPEAT
  deriving DecidableEq

structure Texture2D where
  width : UInt32
  height : UInt32
  data : List UInt8
  parameters : TextureParameters
  deriving DecidableEq

def Texture2D.createFromSource (width height : UInt32) (data : List UInt8) (params : TextureParameters) : Texture2D :=
  ⟨width, height, data, params⟩

def getWrapMode (mode : Int) : TextureWrap :=
  if mode = 10497 then .REPEAT
  else if mode = 33071 then .CLAMP_TO_EDGE
  else if mode = 33648 then .MIRRORED_REPEAT
  else .REPEAT

def getFilter (value : Int) : TextureFilter :=
  if value = 9728 ∨ value = 9984 ∨ value = 9986 then .NEAREST
  else if value = 9729 ∨ value = 9985 ∨ value = 9987 then .LINEAR
  else .LINEAR

/-- An entry of a vector. -/
def entry {α : Type} (items : List α) (i : Int) : Option α := if 0 ≤ i then items[i.toNat]? else none

/-- What a texture is sampled with. It fails where the sampler is not there. -/
def parameters (model : Model) (texture : Texture) : Option TextureParameters :=
  if texture.sampler = -1 then some {}
  else (entry model.samplers texture.sampler).map fun sampler =>
    ⟨getFilter sampler.minFilter, getFilter sampler.magFilter, getWrapMode sampler.wrapS⟩

/-- The texture with its image and its sampler. -/
def build (model : Model) (texture : Texture) : Option Texture2D := do
  let image ← entry model.images texture.source
  let params ← parameters model texture
  return .createFromSource (.ofInt image.width) (.ofInt image.height) image.image params

/-! ## `LoadMaterials` -/

/-- One turn of the loop over the textures. -/
def addTexture (model : Model) (loadedTextures : List Texture2D) (texture : Texture) : Option (List Texture2D) := do
  if texture.source ≠ -1 then
    let texture2D ← build model texture
    return loadedTextures ++ [texture2D]
  else
    let _ ← parameters model texture
    return loadedTextures

def loadTextures (model : Model) : Option (List Texture2D) := model.textures.foldlM (addTexture model) []

/-- The textures of `PBRMataterialTextures`. -/
inductive Slot where
  | albedo | normal | metallic | roughness | ao | emissive
  deriving DecidableEq

def parameterTexture (slot : Slot) (parameters : List (String × Parameter)) (name : String) : List (Slot × Option Int) :=
  ((parameters.lookup name).map fun p => (slot, some p.textureIndex)).toList

def extensionTexture (slot : Slot) (extensions : List (String × Value)) (name : String) : List (Slot × Option Int) :=
  match extensions.lookup "KHR_materials_pbrMetallicGlossiness" with
  | some workflow =>
    if workflow.has name then [(slot, do (← (← workflow.get name).get "index").getInt)] else []
  | none => []

/-- The textures a material refers to by index, in the order in which they are looked up. -/
def Material.references (mat : Material) : List (Slot × Option Int) :=
  parameterTexture .albedo mat.values "baseColorTexture" ++
  parameterTexture .normal mat.additionalValues "normalTexture" ++
  parameterTexture .emissive mat.additionalValues "emissiveTexture" ++
  parameterTexture .metallic mat.values "metallicRoughnessTexture" ++
  parameterTexture .ao mat.additionalValues "occlusionTexture" ++
  extensionTexture .albedo mat.extensions "diffuseTexture" ++
  extensionTexture .roughness mat.extensions "metallicGlossinessTexture"

/-- `loadedTextures[gltfModel.textures[index].source]` -/
def lookUp (model : Model) (loadedTextures : List Texture2D) (index : Option Int) : Option Texture2D := do
  let texture ← entry model.textures (← index)
  entry loadedTextures texture.source

def loadMaterial (model : Model) (loadedTextures : List Texture2D) (mat : Material) :
    Option (Slot → Option Texture2D) :=
  mat.references.foldlM (write (lookUp model loadedTextures)) fun _ => none

def loadMaterials (model : Model) : Option (List (Slot → Option Texture2D)) := do
  let loadedTextures ← loadTextures model
  model.materials.mapM (loadMaterial model loadedTextures)

/-! ## What is asked of it -/

/-- The texture that an index names. -/
def named (model : Model) (index : Option Int) : Option Texture2D := do
  build model (← entry model.textures (← index))

/-- Nothing is looked up out of range, and each texture of a material is the one it refers to. -/
def LoadsNamed (model : Model) : Prop := ∃ loadedMaterials, loadMaterials model = some loadedMaterials ∧
  List.Forall₂ (fun mat textures => ∀ slot, textures slot = (lastWrite mat.references slot).bind (named model))
    model.materials loadedMaterials

/-- The textures that have a source. -/
def sourced (model : Model) : List Texture := model.textures.filter fun texture => texture.source ≠ -1

/-- The source of a texture is its place among those that have one, up to equal images and samplers. -/
structure Aligned (model : Model) : Prop where
  sources : ∀ texture ∈ model.textures, texture.source = -1 ∨ (entry model.images texture.source).isSome
  samplers : ∀ texture ∈ model.textures, (parameters model texture).isSome
  found : ∀ mat ∈ model.materials, ∀ reference ∈ mat.references, ∃ i texture, reference.2 = some i ∧
    entry model.textures i = some texture ∧ (entry (sourced model) texture.source).isSome
  same : ∀ mat ∈ model.materials, ∀ slot i, lastWrite mat.references slot = some (some i) →
    ∀ texture other, entry model.textures i = some texture → entry (sourced model) texture.source = some other →
      build model other = build model texture

/-! ## The textures -/

variable {model : Model} {texture : Texture} {mat : Material}

/-- What a texture names is there. -/
def Complete (model : Model) (texture : Texture) : Prop :=
  (texture.source = -1 ∨ (entry model.images texture.source).isSome) ∧ (parameters model texture).isSome

theorem exists_build (himage : (entry model.images texture.source).isSome) (hparams : (parameters model texture).isSome) :
    ∃ texture2D, build model texture = some texture2D := by
  obtain ⟨image, himage⟩ := Option.isSome_iff_exists.mp himage
  obtain ⟨params, hparams⟩ := Option.isSome_iff_exists.mp hparams
  exact ⟨_, by rw [build, himage, hparams]; rfl⟩

/-- What one turn adds, and that it needs all the texture names. -/
theorem addTexture_spec {loadedTextures after : List Texture2D} (h : addTexture model loadedTextures texture = some after) :
    Complete model texture ∧ after.map some = loadedTextures.map some ++
      ([texture].filter fun texture => texture.source ≠ -1).map (build model) := by
  by_cases hsource : texture.source = -1
  · rw [addTexture, if_neg (not_not_intro hsource)] at h
    obtain ⟨params, hparams, hafter⟩ := Option.bind_eq_some_iff.mp h
    obtain rfl := Option.some.inj hafter
    refine ⟨⟨Or.inl hsource, by rw [hparams]; rfl⟩, ?_⟩
    simp [hsource]
  · rw [addTexture, if_pos hsource] at h
    obtain ⟨texture2D, hbuild, hafter⟩ := Option.bind_eq_some_iff.mp h
    obtain rfl := Option.some.inj hafter
    obtain ⟨image, himage, hrest⟩ := Option.bind_eq_some_iff.mp hbuild
    obtain ⟨params, hparams, -⟩ := Option.bind_eq_some_iff.mp hrest
    refine ⟨⟨Or.inr (by rw [himage]; rfl), by rw [hparams]; rfl⟩, ?_⟩
    simp [hsource, hbuild]

theorem exists_addTexture (loadedTextures : List Texture2D) (h : Complete model texture) :
    ∃ after, addTexture model loadedTextures texture = some after := by
  by_cases hsource : texture.source = -1
  · obtain ⟨params, hparams⟩ := Option.isSome_iff_exists.mp h.2
    exact ⟨loadedTextures, by rw [addTexture, if_neg (not_not_intro hsource), hparams]; rfl⟩
  · obtain ⟨texture2D, hbuild⟩ := exists_build (h.1.resolve_left hsource) h.2
    exact ⟨loadedTextures ++ [texture2D], by rw [addTexture, if_pos hsource, hbuild]; rfl⟩

theorem foldlM_addTexture_spec (textures : List Texture) {loadedTextures after : List Texture2D}
    (h : textures.foldlM (addTexture model) loadedTextures = some after) :
    (∀ texture ∈ textures, Complete model texture) ∧ after.map some = loadedTextures.map some ++
      (textures.filter fun texture => texture.source ≠ -1).map (build model) := by
  induction textures generalizing loadedTextures with
  | nil =>
    obtain rfl := Option.some.inj h
    exact ⟨fun _ h => absurd h List.not_mem_nil, (List.append_nil _).symm⟩
  | cons texture textures ih =>
    rw [List.foldlM_cons] at h
    obtain ⟨middle, hfirst, hrest⟩ := Option.bind_eq_some_iff.mp h
    obtain ⟨hcomplete, hmiddle⟩ := addTexture_spec hfirst
    obtain ⟨hall, hafter⟩ := ih hrest
    refine ⟨List.forall_mem_cons.mpr ⟨hcomplete, hall⟩, ?_⟩
    rw [hafter, hmiddle, List.append_assoc, ← List.map_append, ← List.filter_append, List.singleton_append]

theorem exists_foldlM_addTexture (textures : List Texture) (loadedTextures : List Texture2D)
    (h : ∀ texture ∈ textures, Complete model texture) :
    ∃ after, textures.foldlM (addTexture model) loadedTextures = some after := by
  induction textures generalizing loadedTextures with
  | nil => exact ⟨loadedTextures, rfl⟩
  | cons texture textures ih =>
    obtain ⟨middle, hfirst⟩ := exists_addTexture loadedTextures (h texture List.mem_cons_self)
    obtain ⟨after, hrest⟩ := ih middle fun texture hmem => h texture (List.mem_cons_of_mem _ hmem)
    exact ⟨after, by rw [List.foldlM_cons, hfirst]; exact hrest⟩

/-- The loaded textures are those that have a source. -/
theorem entry_loadTextures {loadedTextures : List Texture2D} (h : loadTextures model = some loadedTextures) (i : Int) :
    entry loadedTextures i = (entry (sourced model) i).bind (build model) := by
  have hmap : loadedTextures.map some = (sourced model).map (build model) := (foldlM_addTexture_spec _ h).2
  unfold entry
  split
  · have hentry := congrArg (fun items => items[i.toNat]?) hmap
    simp only [List.getElem?_map] at hentry
    cases hloaded : loadedTextures[i.toNat]? with
    | none =>
      rw [hloaded] at hentry
      rw [Option.map_eq_none_iff.mp hentry.symm]
      rfl
    | some texture2D =>
      rw [hloaded] at hentry
      obtain ⟨other, hother, hbuild⟩ := Option.map_eq_some_iff.mp hentry.symm
      rw [hother]
      exact hbuild.symm
  · rfl

/-! ## The materials -/

theorem mapM_eq_some_iff {α β : Type} {f : α → Option β} {items : List α} {results : List β} :
    items.mapM f = some results ↔ List.Forall₂ (fun a b => f a = some b) items results := by
  induction items generalizing results with
  | nil =>
    rw [List.mapM_nil, List.forall₂_nil_left_iff]
    exact ⟨fun h => (Option.some.inj h).symm, fun h => congrArg some h.symm⟩
  | cons a items ih =>
    rw [List.mapM_cons, List.forall₂_cons_left_iff]
    constructor
    · intro h
      obtain ⟨b, hb, hrest⟩ := Option.bind_eq_some_iff.mp h
      obtain ⟨rest, hitems, hresults⟩ := Option.bind_eq_some_iff.mp hrest
      exact ⟨b, rest, hb, ih.mp hitems, (Option.some.inj hresults).symm⟩
    · rintro ⟨b, rest, hb, hitems, rfl⟩
      rw [hb, ih.mpr hitems]
      rfl

theorem exists_forall₂ {α β : Type} {R : α → β → Prop} {items : List α} (h : ∀ a ∈ items, ∃ b, R a b) :
    ∃ results, List.Forall₂ R items results := by
  induction items with
  | nil => exact ⟨[], .nil⟩
  | cons a items ih =>
    obtain ⟨b, hb⟩ := h a List.mem_cons_self
    obtain ⟨results, hresults⟩ := ih fun a hmem => h a (List.mem_cons_of_mem _ hmem)
    exact ⟨b :: results, .cons hb hresults⟩

theorem lookUp_eq_some_iff {loadedTextures : List Texture2D} (h : loadTextures model = some loadedTextures)
    {index : Option Int} {texture2D : Texture2D} : lookUp model loadedTextures index = some texture2D ↔
      ∃ i texture other, index = some i ∧ entry model.textures i = some texture ∧
        entry (sourced model) texture.source = some other ∧ build model other = some texture2D := by
  constructor
  · intro hlook
    obtain ⟨i, hi, hlook⟩ := Option.bind_eq_some_iff.mp hlook
    obtain ⟨texture, htexture, hlook⟩ := Option.bind_eq_some_iff.mp hlook
    rw [entry_loadTextures h] at hlook
    obtain ⟨other, hother, hbuild⟩ := Option.bind_eq_some_iff.mp hlook
    exact ⟨i, texture, other, hi, htexture, hother, hbuild⟩
  · rintro ⟨i, texture, other, rfl, htexture, hother, hbuild⟩
    change (entry model.textures i).bind _ = _
    rw [htexture, Option.bind_some, entry_loadTextures h, hother]
    exact hbuild

theorem exists_build_sourced {loadedTextures : List Texture2D} (h : loadTextures model = some loadedTextures) {i : Int}
    {other : Texture} (hother : entry (sourced model) i = some other) : ∃ texture2D, build model other = some texture2D := by
  have hmem : other ∈ sourced model := by
    unfold entry at hother
    split at hother
    · exact List.mem_of_getElem? hother
    · cases hother
  obtain ⟨hmem, hsource⟩ := List.mem_filter.mp hmem
  obtain ⟨himage, hparams⟩ := (foldlM_addTexture_spec _ h).1 other hmem
  exact exists_build (himage.resolve_left (of_decide_eq_true hsource)) hparams

/-- The textures of a material are the ones it refers to exactly if the places agree. -/
theorem loadMaterial_iff {loadedTextures : List Texture2D} (h : loadTextures model = some loadedTextures) :
    (∃ textures, loadMaterial model loadedTextures mat = some textures ∧
      ∀ slot, textures slot = (lastWrite mat.references slot).bind (named model)) ↔
    (∀ reference ∈ mat.references, ∃ i texture, reference.2 = some i ∧
      entry model.textures i = some texture ∧ (entry (sourced model) texture.source).isSome) ∧
    ∀ slot i, lastWrite mat.references slot = some (some i) → ∀ texture other,
      entry model.textures i = some texture → entry (sourced model) texture.source = some other →
        build model other = build model texture := by
  constructor
  · rintro ⟨textures, hload, hnamed⟩
    obtain ⟨hfound, rfl⟩ := foldlM_write_iff.mp hload
    refine ⟨fun reference hreference => ?_, fun slot i hlast texture other htexture hother => ?_⟩
    · obtain ⟨texture2D, hlook⟩ := Option.isSome_iff_exists.mp (hfound reference hreference)
      obtain ⟨i, texture, other, hi, htexture, hother, -⟩ := (lookUp_eq_some_iff h).mp hlook
      exact ⟨i, texture, hi, htexture, by rw [hother]; rfl⟩
    · obtain ⟨texture2D, hlook⟩ := Option.isSome_iff_exists.mp (hfound _ (mem_of_lastWrite hlast))
      obtain ⟨i', texture', other', hi, htexture', hother', hbuild⟩ := (lookUp_eq_some_iff h).mp hlook
      obtain rfl := Option.some.inj hi
      obtain rfl := Option.some.inj (htexture.symm.trans htexture')
      obtain rfl := Option.some.inj (hother.symm.trans hother')
      have hslot := hnamed slot
      rw [written, hlast] at hslot
      change lookUp model loadedTextures (some i) = named model (some i) at hslot
      rw [hlook, named, Option.bind_eq_bind, Option.bind_some, htexture] at hslot
      exact hbuild.trans hslot
  · rintro ⟨hfound, hsame⟩
    have hbuilt : ∀ reference ∈ mat.references, (lookUp model loadedTextures reference.2).isSome := by
      intro reference hreference
      obtain ⟨i, texture, hi, htexture, hother⟩ := hfound reference hreference
      obtain ⟨other, hother⟩ := Option.isSome_iff_exists.mp hother
      obtain ⟨texture2D, hbuild⟩ := exists_build_sourced h hother
      rw [(lookUp_eq_some_iff h).mpr ⟨i, texture, other, hi, htexture, hother, hbuild⟩]
      rfl
    refine ⟨_, foldlM_write_iff.mpr ⟨hbuilt, rfl⟩, fun slot => ?_⟩
    unfold written
    split
    · next index hlast =>
      obtain ⟨texture2D, hlook⟩ := Option.isSome_iff_exists.mp (hbuilt _ (mem_of_lastWrite hlast))
      obtain ⟨i, texture, other, rfl, htexture, hother, hbuild⟩ := (lookUp_eq_some_iff h).mp hlook
      rw [hlast, Option.bind_some, hlook, named, Option.bind_eq_bind, Option.bind_some, htexture]
      exact (hbuild.symm.trans (hsame slot i hlast texture other htexture hother))
    · next hlast =>
      rw [hlast]
      rfl

/-- `LoadMaterials` does what is asked exactly if the lists fit together. -/
theorem loadsNamed_iff_aligned (model : Model) : LoadsNamed model ↔ Aligned model := by
  constructor
  · rintro ⟨loadedMaterials, hload, hnamed⟩
    obtain ⟨loadedTextures, htextures, hmaterials⟩ := Option.bind_eq_some_iff.mp hload
    have hcomplete := (foldlM_addTexture_spec _ htextures).1
    have hloaded := mapM_eq_some_iff.mp hmaterials
    have hmat : ∀ mat ∈ model.materials, ∃ textures, loadMaterial model loadedTextures mat = some textures ∧
        ∀ slot, textures slot = (lastWrite mat.references slot).bind (named model) := by
      intro mat hmem
      obtain ⟨i, hi, rfl⟩ := List.mem_iff_getElem.mp hmem
      have hi' : i < loadedMaterials.length := hloaded.length_eq ▸ hi
      exact ⟨loadedMaterials[i], (List.forall₂_iff_get.mp hloaded).2 i hi hi',
        (List.forall₂_iff_get.mp hnamed).2 i hi hi'⟩
    exact ⟨fun texture hmem => (hcomplete texture hmem).1, fun texture hmem => (hcomplete texture hmem).2,
      fun mat hmem => ((loadMaterial_iff htextures).mp (hmat mat hmem)).1,
      fun mat hmem => ((loadMaterial_iff htextures).mp (hmat mat hmem)).2⟩
  · intro h
    obtain ⟨loadedTextures, htextures⟩ := exists_foldlM_addTexture model.textures [] fun texture hmem =>
      ⟨h.sources texture hmem, h.samplers texture hmem⟩
    have hmat : ∀ mat ∈ model.materials, ∃ textures, loadMaterial model loadedTextures mat = some textures ∧
        ∀ slot, textures slot = (lastWrite mat.references slot).bind (named model) :=
      fun mat hmem => (loadMaterial_iff htextures).mpr ⟨h.found mat hmem, h.same mat hmem⟩
    obtain ⟨loadedMaterials, hloaded⟩ := exists_forall₂ hmat
    refine ⟨loadedMaterials, Option.bind_eq_some_iff.mpr ⟨loadedTextures, htextures,
      mapM_eq_some_iff.mpr (hloaded.imp fun _ _ => And.left)⟩, hloaded.imp fun _ _ => And.right⟩

/-- Two textures with the same image, and a sampler each. -/
def twoSamplers : Model where
  textures := [⟨0, 0⟩, ⟨0, 1⟩]
  images := [⟨1, 1, [255, 255, 255, 255]⟩]
  samplers := [⟨9728, 9728, 10497⟩, ⟨9729, 9729, 10497⟩]
  materials := [⟨[("baseColorTexture", ⟨some 1⟩)], [], []⟩]

/-- The material gets the texture with the first sampler. -/
theorem twoSamplers_not_loadsNamed : ¬ LoadsNamed twoSamplers := by
  rintro ⟨loadedMaterials, hload, hnamed⟩
  have halbedo : (loadMaterials twoSamplers).map (List.map fun textures => textures .albedo) =
      some [some ⟨1, 1, [255, 255, 255, 255], ⟨.NEAREST, .NEAREST, .REPEAT⟩⟩] := by decide
  cases hnamed with
  | cons hmat hrest =>
    cases hrest
    rw [hload] at halbedo
    have hslot := (hmat .albedo).symm.trans (List.cons.inj (Option.some.inj halbedo)).1
    exact absurd hslot (by decide)

end Lumos.Graphics.GLTF
