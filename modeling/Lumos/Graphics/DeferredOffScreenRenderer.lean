import Lumos.Graphics.CameraView
import Lumos.Platform.DescriptorInfos

/-!
# `DeferredOffScreenRenderer`

The meshes of a scene that may be in view are queued, each with the matrix of its entity and with a
descriptor set of its material. No mesh is left out that is in view, and no set is bound that was
made for other textures or another pipeline.
-/
namespace Lumos.Graphics.Deferred

open Maths FloatArithmetic FloatLiterals LazyCache

/-! ## Materials -/

structure PBRMaterialTextures (T : Type) where
  albedo : Option T
  normal : Option T
  roughness : Option T
  metallic : Option T
  ao : Option T
  emissive : Option T

/-- What `Update` is called with. -/
structure DescriptorSet (P T : Type) where
  pipeline : P
  imageInfos : List (ImageInfo T)

structure Material (P T : Type) where
  pbrMaterialTextures : PBRMaterialTextures T
  texturesUpdated : Bool
  pipeline : Option P
  descriptorSet : Option (DescriptorSet P T)

/-- The six setters of a texture. -/
inductive TextureSlot where
  | albedo | normal | roughness | metallic | ao | emissive

section Code

variable {P T : Type}

def PBRMaterialTextures.set (textures : PBRMaterialTextures T) (tex : T) : TextureSlot → PBRMaterialTextures T
  | .albedo => { textures with albedo := some tex }
  | .normal => { textures with normal := some tex }
  | .roughness => { textures with roughness := some tex }
  | .metallic => { textures with metallic := some tex }
  | .ao => { textures with ao := some tex }
  | .emissive => { textures with emissive := some tex }

/-- An image, or the default where there is none. -/
def image (defaultTexture : T) (texture : Option T) (binding : Nat) (name : String) : ImageInfo T :=
  ⟨[], texture.getD defaultTexture, 1, binding, name, Or.inl rfl⟩

/-- The default for `u_AOMap` goes to the binding of `u_EmissiveMap`. -/
def PBRMaterialTextures.imageInfos (textures : PBRMaterialTextures T) (defaultTexture : T) : List (ImageInfo T) :=
  [image defaultTexture textures.albedo 0 "u_AlbedoMap",
   image defaultTexture textures.metallic 1 "u_MetallicMap",
   image defaultTexture textures.roughness 2 "u_RoughnessMap",
   image defaultTexture textures.normal 3 "u_NormalMap",
   image defaultTexture textures.ao (if textures.ao.isSome then 4 else 5) "u_AOMap",
   image defaultTexture textures.emissive 5 "u_EmissiveMap"]

namespace Material

/-- A material as it is loaded. -/
def loaded (textures : PBRMaterialTextures T) : Material P T := ⟨textures, false, none, none⟩

/-- `SetAlbedoTexture` and the like; the file may not be there. -/
def setTexture (m : Material P T) (slot : TextureSlot) : Option T → Material P T
  | none => m
  | some tex => { m with pbrMaterialTextures := m.pbrMaterialTextures.set tex slot, texturesUpdated := true }

variable (defaultTexture : T)

def createDescriptorSet (m : Material P T) (pipeline : P) : Material P T :=
  { m with
    pipeline := some pipeline
    descriptorSet := some ⟨pipeline, m.pbrMaterialTextures.imageInfos defaultTexture⟩ }

variable [DecidableEq P]

/-- The check before a mesh is submitted. -/
def stale (m : Material P T) (pipeline : P) : Bool :=
  m.descriptorSet.isNone || !decide (m.pipeline = some pipeline) || m.texturesUpdated

def prepare (pipeline : P) (m : Material P T) : Material P T :=
  if m.stale pipeline then { m.createDescriptorSet defaultTexture pipeline with texturesUpdated := false } else m

end Material

/-! ## The queue -/

variable {K : Type}

structure Mesh (K : Type) where
  active : Bool
  boundingBox : BoundingBox K
  /-- Meshes may share one. -/
  material : Option Nat
  deriving DecidableEq

/-- An entity with a `Model` and a `Transform`. -/
structure Entity (K : Type) where
  meshes : List (Mesh K)
  worldMatrix : Matrix4 K
  textureMatrix : Option (Matrix4 K)

structure RenderCommand (K : Type) where
  mesh : Mesh K
  material : Option Nat
  transform : Matrix4 K
  textureMatrix : Matrix4 K
  deriving DecidableEq

structure Renderer (K P T : Type) where
  pipeline : P
  defaultTexture : T
  defaultMaterial : Material P T
  materials : Nat → Material P T
  commandQueue : List (RenderCommand K)

/-- What a mesh is drawn with. -/
structure Draw (K P T : Type) where
  mesh : Mesh K
  descriptorSet : Option (DescriptorSet P T)
  transform : Matrix4 K

variable [FloatLiterals K]

/-- The command for a mesh that is submitted. -/
def Entity.command (entity : Entity K) (mesh : Mesh K) : RenderCommand K :=
  ⟨mesh, mesh.material, entity.worldMatrix, entity.textureMatrix.getD .initial⟩

/-- The frustum check. -/
def Entity.visible (frustum : Frustum K) (entity : Entity K) (mesh : Mesh K) : Bool :=
  mesh.active && !decide (frustum.isInsideFast (mesh.boundingBox.transformed entity.worldMatrix) = .outside)

namespace Renderer

variable [DecidableEq P] (tan : K → K) (clip : ClipControl)

def prepare (r : Renderer K P T) : Option Nat → Renderer K P T
  | none => r
  | some i =>
    { r with materials := Function.update r.materials i ((r.materials i).prepare r.defaultTexture r.pipeline) }

def submitMesh (r : Renderer K P T) (command : RenderCommand K) : Renderer K P T :=
  { r with commandQueue := r.commandQueue ++ [command] }

/-- What is done with a mesh of the group. -/
def check (frustum : Frustum K) (entity : Entity K) (r : Renderer K P T) (mesh : Mesh K) : Renderer K P T :=
  if entity.visible frustum mesh then (r.prepare mesh.material).submitMesh (entity.command mesh) else r

/-- The loop over the meshes of a model. -/
def submitModel (frustum : Frustum K) (r : Renderer K P T) (entity : Entity K) : Renderer K P T :=
  entity.meshes.foldl (check frustum entity) r

/-- The loop over the group. -/
def submitMeshes (frustum : Frustum K) (r : Renderer K P T) (group : List (Entity K)) : Renderer K P T :=
  group.foldl (submitModel frustum) r

/-- `BeginScene`, with the camera and the world matrix of its entity. -/
def beginScene (r : Renderer K P T) (camera : Camera K) (cameraTransform : Matrix4 K) (group : List (Entity K)) :
    Renderer K P T × Camera K :=
  let r := { r with commandQueue := [] }
  let view := cameraTransform.inverse
  let camera := (camera.getProjectionMatrix tan clip).2
  let (frustum, camera) := camera.getFrustum tan clip view
  (r.submitMeshes frustum group, camera)

def draw (r : Renderer K P T) (command : RenderCommand K) : Draw K P T :=
  ⟨command.mesh,
   match command.material with
   | some i => (r.materials i).descriptorSet
   | none => r.defaultMaterial.descriptorSet,
   command.transform⟩

def present (r : Renderer K P T) : List (Draw K P T) := r.commandQueue.map r.draw

end Renderer

end Code

/-! ## What is submitted -/

section Queue

variable {K P T : Type} [FloatLiterals K] [DecidableEq P] {frustum : Frustum K} {r : Renderer K P T}

/-- What is queued for an entity. -/
def Entity.commands (frustum : Frustum K) (entity : Entity K) : List (RenderCommand K) :=
  (entity.meshes.filter (entity.visible frustum)).map entity.command

namespace Renderer

omit [FloatLiterals K] in
theorem commandQueue_prepare (material : Option Nat) : (r.prepare material).commandQueue = r.commandQueue := by
  cases material <;> rfl

theorem commandQueue_check (entity : Entity K) (mesh : Mesh K) : (r.check frustum entity mesh).commandQueue =
    r.commandQueue ++ ([mesh].filter (entity.visible frustum)).map entity.command := by
  cases hvisible : entity.visible frustum mesh with
  | true => simp [check, hvisible, submitMesh, commandQueue_prepare]
  | false => simp [check, hvisible]

theorem commandQueue_submitModel (entity : Entity K) :
    (r.submitModel frustum entity).commandQueue = r.commandQueue ++ entity.commands frustum := by
  have hmeshes : ∀ (meshes : List (Mesh K)) (r : Renderer K P T), (meshes.foldl (check frustum entity) r).commandQueue =
      r.commandQueue ++ (meshes.filter (entity.visible frustum)).map entity.command := by
    intro meshes
    induction meshes with
    | nil => simp
    | cons mesh meshes ih =>
      intro r
      rw [List.foldl_cons, ih, commandQueue_check, List.append_assoc, ← List.map_append, ← List.filter_append]
      rfl
  exact hmeshes entity.meshes r

theorem commandQueue_submitMeshes (group : List (Entity K)) :
    (r.submitMeshes frustum group).commandQueue = r.commandQueue ++ group.flatMap (Entity.commands frustum) := by
  induction group generalizing r with
  | nil => simp [submitMeshes]
  | cons entity group ih =>
    change ((r.submitModel frustum entity).submitMeshes frustum group).commandQueue = _
    rw [ih, commandQueue_submitModel, List.flatMap_cons, List.append_assoc]

end Renderer

end Queue

/-! ## What is in view -/

section Culling

variable {P T : Type} [DecidableEq P] {clip : ClipControl}

/-- The meshes of an entity that are active, and of which the box has a point that is taken to a set. -/
def Entity.Reaches (entity : Entity ℝ) (seen : Set (Vector3 ℝ)) (mesh : Mesh ℝ) : Prop :=
  mesh ∈ entity.meshes ∧ mesh.active = true ∧
    ∃ v, mesh.boundingBox.Holds v ∧ (Matrix3x4.ofMatrix4 entity.worldMatrix).apply v ∈ seen

/-- However the camera has been made and used, the queue holds commands for meshes of the group in order, all for
active ones, and leaves none of those out that the camera has in view. -/
theorem Renderer.beginScene_submits (r : Renderer ℝ P T) (c : CameraConstruction ℝ) (calls : List (CameraCall ℝ))
    (hannounced : (c.history.afterAll calls).announced = true) (hclip : clip = .RH_ZO ∨ clip = .RH_NO)
    {world : Matrix3x4 ℝ} (hworld : world.toMatrix3.toMatrix.det ≠ 0)
    (hsensible : (c.history.afterAll calls).parameters.Sensible) (group : List (Entity ℝ)) :
    let queue := (r.beginScene Real.tan clip (c.camera.after Real.tan clip calls) world.toMatrix4 group).1.commandQueue
    queue.Sublist (group.flatMap fun entity => (entity.meshes.filter Mesh.active).map entity.command) ∧
      ∀ entity ∈ group, ∀ mesh,
        entity.Reaches (world.apply '' ((c.history.afterAll calls).parameters.view hsensible).region clip) mesh →
          entity.command mesh ∈ queue := by
  intro queue
  have hr := (represents_construction c : Represents Real.tan clip _ _).afterAll calls
  have hshows := ProjectionParameters.shows hsensible (CameraHistory.plain_afterAll c.plain_history calls) hclip
  have hqueue : queue = group.flatMap (Entity.commands
      (Frustum.define clip (((c.history.afterAll calls).parameters.projection Real.tan clip).product
        world.toMatrix4.inverse))) := by
    rw [← hr.getFrustum_eq hannounced]
    exact (commandQueue_submitMeshes group).trans (List.nil_append _)
  rw [hqueue]
  constructor
  · refine List.Sublist.flatMap_right group fun entity _ => (List.monotone_filter_right _ fun mesh hvisible => ?_).map _
    exact (Bool.and_eq_true_iff.mp hvisible).1
  · intro entity hentity mesh hreaches
    obtain ⟨hmesh, hactive, v, hv, hseen⟩ := hreaches
    refine List.mem_flatMap.mpr ⟨entity, hentity, List.mem_map_of_mem (List.mem_filter.mpr ⟨hmesh, ?_⟩)⟩
    have hinside := hshows.isInsideFast_ne hworld (BoundingBox.holds_transformed entity.worldMatrix hv) hseen
    simp [Entity.visible, hactive, hinside]

end Culling

/-- A mesh where it is made, with the first of the materials. -/
def box (K : Type) [FloatLiterals K] : Mesh K := ⟨true, ⟨0, ⟨1, 1, 1⟩⟩, some 0⟩

def boxEntity (K : Type) [FloatLiterals K] : Entity K := ⟨[box K], .initial, none⟩

def noTextures : PBRMaterialTextures String := ⟨none, none, none, none, none, none⟩

def newRenderer (K : Type) : Renderer K Nat String := ⟨0, "white", .loaded noTextures, fun _ => .loaded noTextures, []⟩

theorem Renderer.beginScene_submits_box : (boxEntity ℝ).command (box ℝ) ∈
    ((newRenderer ℝ).beginScene Real.tan .RH_NO
      ((CameraConstruction.orthographic (1 : ℝ) 1).camera.after Real.tan .RH_NO [])
        (Matrix3x4.initial : Matrix3x4 ℝ).toMatrix4 [boxEntity ℝ]).1.commandQueue := by
  refine (beginScene_submits (newRenderer ℝ) (.orthographic 1 1) [] rfl (Or.inr rfl) det_initial sensible_orthographic
    [boxEntity ℝ]).2 _ List.mem_cons_self _ ⟨List.mem_cons_self, rfl, 0, ?_, 0, zero_mem_region_orthographic, ?_⟩
  · constructor <;> exact ⟨le_rfl, zero_le_one⟩
  · ext <;> simp [Matrix3x4.apply, Matrix3x4.initial, Matrix3x4.ofMatrix4, boxEntity, Matrix4.initial]

/-! ## What the sets hold -/

section Sets

variable {P T : Type} [DecidableEq P] {m : Material P T} {defaultTexture : T} {pipeline : P}

namespace Material

/-- The set that is wanted of a material for a pipeline. -/
def current (m : Material P T) (defaultTexture : T) (pipeline : P) : DescriptorSet P T :=
  ⟨pipeline, m.pbrMaterialTextures.imageInfos defaultTexture⟩

def setCache (m : Material P T) (pipeline : P) : Cached (Option (DescriptorSet P T)) :=
  ⟨m.descriptorSet, m.stale pipeline⟩

/-- Whatever the pipeline, a set that is not made again is the one that is wanted. -/
def Coherent (defaultTexture : T) (m : Material P T) : Prop :=
  ∀ pipeline, (m.setCache pipeline).Coherent (some (m.current defaultTexture pipeline))

theorem coherent_loaded (textures : PBRMaterialTextures T) : (loaded textures : Material P T).Coherent defaultTexture :=
  fun _ => Cached.coherent_of_dirty rfl _

theorem coherent_setTexture (h : m.Coherent defaultTexture) (slot : TextureSlot) (tex : Option T) :
    (m.setTexture slot tex).Coherent defaultTexture := by
  cases tex with
  | none => exact h
  | some tex => exact fun _ => Cached.coherent_of_dirty (Bool.or_true _) _

theorem pbrMaterialTextures_prepare :
    (m.prepare defaultTexture pipeline).pbrMaterialTextures = m.pbrMaterialTextures := by
  unfold prepare
  split <;> rfl

theorem current_prepare (other : P) :
    (m.prepare defaultTexture pipeline).current defaultTexture other = m.current defaultTexture other := by
  rw [current, pbrMaterialTextures_prepare]
  rfl

theorem descriptorSet_prepare_eq_refresh : (m.prepare defaultTexture pipeline).descriptorSet =
    ((m.setCache pipeline).refresh (some (m.current defaultTexture pipeline))).value := by
  cases hstale : m.stale pipeline with
  | true => rw [Cached.refresh_of_dirty hstale, prepare, if_pos hstale]; rfl
  | false => rw [Cached.refresh_of_clean hstale, prepare, if_neg (Bool.eq_false_iff.mp hstale)]; rfl

/-- What is prepared has the set that is wanted. -/
theorem descriptorSet_prepare (h : m.Coherent defaultTexture) :
    (m.prepare defaultTexture pipeline).descriptorSet = some (m.current defaultTexture pipeline) := by
  rw [descriptorSet_prepare_eq_refresh]
  exact (Cached.refresh_value_iff _ _).mpr (h pipeline)

theorem coherent_prepare (h : m.Coherent defaultTexture) :
    (m.prepare defaultTexture pipeline).Coherent defaultTexture := by
  intro other
  rw [current_prepare]
  cases hstale : m.stale pipeline with
  | false =>
    rw [prepare, if_neg (Bool.eq_false_iff.mp hstale)]
    exact h other
  | true =>
    intro hclean
    rw [prepare, if_pos hstale] at hclean ⊢
    have hother : pipeline = other := by simpa [setCache, stale, createDescriptorSet] using hclean
    exact hother ▸ rfl

end Material

variable {K : Type} [FloatLiterals K] {frustum : Frustum K} {r : Renderer K P T}

/-! ## Frames -/

/-- A setter that is called of a material. -/
structure TextureChange (T : Type) where
  material : Nat
  slot : TextureSlot
  tex : Option T

/-- What happens to the materials before a frame, and the scene it shows. The pipeline is another one after the window
has been resized. -/
structure Frame (K P T : Type) where
  changes : List (TextureChange T)
  pipeline : P
  camera : Camera K
  cameraTransform : Matrix4 K
  group : List (Entity K)

/-- The textures that the setters leave a material with. -/
def texturesAfter (i : Nat) (textures : PBRMaterialTextures T) (changes : List (TextureChange T)) :
    PBRMaterialTextures T :=
  changes.foldl (fun textures change => if change.material = i then
    change.tex.elim textures fun tex => textures.set tex change.slot else textures) textures

theorem texturesAfter_append (i : Nat) (textures : PBRMaterialTextures T) (before after : List (TextureChange T)) :
    texturesAfter i textures (before ++ after) = texturesAfter i (texturesAfter i textures before) after :=
  List.foldl_append

namespace Renderer

def change (r : Renderer K P T) (c : TextureChange T) : Renderer K P T :=
  { r with materials := Function.update r.materials c.material ((r.materials c.material).setTexture c.slot c.tex) }

def frame (tan : K → K) (clip : ClipControl) (r : Renderer K P T) (f : Frame K P T) : Renderer K P T :=
  ((f.changes.foldl change { r with pipeline := f.pipeline }).beginScene tan clip f.camera f.cameraTransform f.group).1

def run (tan : K → K) (clip : ClipControl) (r : Renderer K P T) (frames : List (Frame K P T)) : Renderer K P T :=
  frames.foldl (frame tan clip) r

/-- Every material of a command has the set that is wanted of it. -/
def Ready (r : Renderer K P T) : Prop :=
  ∀ command ∈ r.commandQueue, ∀ i, command.material = some i →
    (r.materials i).descriptorSet = some ((r.materials i).current r.defaultTexture r.pipeline)

/-- No material has a set that is wrong, and the textures are known. -/
structure Tracks (defaultTexture : T) (textures : Nat → PBRMaterialTextures T) (r : Renderer K P T) : Prop where
  coherent : ∀ i, (r.materials i).Coherent defaultTexture
  default_eq : r.defaultTexture = defaultTexture
  textures_eq : ∀ i, (r.materials i).pbrMaterialTextures = textures i

section Steps

omit [FloatLiterals K]

variable {textures : Nat → PBRMaterialTextures T}

theorem Tracks.change (h : r.Tracks defaultTexture textures) (c : TextureChange T) :
    (r.change c).Tracks defaultTexture fun i => texturesAfter i (textures i) [c] := by
  have hsame : ∀ i, i ≠ c.material → (r.change c).materials i = r.materials i :=
    fun i hi => Function.update_of_ne hi _ _
  have hset : (r.change c).materials c.material = (r.materials c.material).setTexture c.slot c.tex :=
    Function.update_self _ _ _
  refine ⟨fun i => ?_, h.default_eq, fun i => ?_⟩
  · by_cases hi : i = c.material
    · rw [hi, hset]
      exact Material.coherent_setTexture (h.coherent _) _ _
    · rw [hsame i hi]
      exact h.coherent i
  · rw [← h.textures_eq i]
    by_cases hi : i = c.material
    · rw [hi, hset]
      cases htex : c.tex <;> simp [texturesAfter, Material.setTexture, htex]
    · rw [hsame i hi]
      simp [texturesAfter, Ne.symm hi]

theorem Tracks.changes (h : r.Tracks defaultTexture textures) (changes : List (TextureChange T)) :
    (changes.foldl Renderer.change r).Tracks defaultTexture fun i => texturesAfter i (textures i) changes := by
  induction changes generalizing r textures with
  | nil => exact h
  | cons c changes ih => exact ih (h.change c)

omit [DecidableEq P] in
theorem pipeline_changes (changes : List (TextureChange T)) : (changes.foldl change r).pipeline = r.pipeline := by
  induction changes generalizing r with
  | nil => rfl
  | cons c changes ih => exact ih

theorem materials_prepare (i j : Nat) : (r.prepare (some i)).materials j =
    if j = i then (r.materials j).prepare r.defaultTexture r.pipeline else r.materials j := by
  split
  · next h =>
    rw [h]
    exact Function.update_self _ _ _
  · next h => exact Function.update_of_ne h _ _

/-- Preparing a material gives it no other textures, and no set that is wrong. -/
theorem Tracks.prepare (h : r.Tracks defaultTexture textures) (material : Option Nat) :
    (r.prepare material).Tracks defaultTexture textures := by
  cases material with
  | none => exact h
  | some i =>
    refine ⟨fun j => ?_, h.default_eq, fun j => ?_⟩
    · rw [materials_prepare, h.default_eq]
      split
      · exact Material.coherent_prepare (h.coherent j)
      · exact h.coherent j
    · rw [materials_prepare, ← h.textures_eq j]
      split
      · exact Material.pbrMaterialTextures_prepare
      · rfl

/-- A material that is prepared again for another mesh keeps its set. -/
theorem Ready.submit (hready : r.Ready) (h : r.Tracks defaultTexture textures) (command : RenderCommand K) :
    ((r.prepare command.material).submitMesh command).Ready := by
  intro c hc j hj
  have hset : ∀ i, (r.prepare (some i)).Ready ∧
      ((r.prepare (some i)).materials i).descriptorSet =
        some (((r.prepare (some i)).materials i).current r.defaultTexture r.pipeline) := by
    intro i
    have hprepared : ((r.materials i).prepare r.defaultTexture r.pipeline).descriptorSet =
        some (((r.materials i).prepare r.defaultTexture r.pipeline).current r.defaultTexture r.pipeline) := by
      rw [Material.current_prepare, Material.descriptorSet_prepare (h.default_eq ▸ h.coherent i)]
    refine ⟨fun c hc k hk => ?_, ?_⟩
    · change ((r.prepare (some i)).materials k).descriptorSet =
        some (((r.prepare (some i)).materials k).current r.defaultTexture r.pipeline)
      rw [materials_prepare]
      split
      · next hki => rwa [hki]
      · exact hready c hc k hk
    · rwa [materials_prepare, if_pos rfl]
  rcases List.mem_append.mp hc with hold | hnew
  · cases hmaterial : command.material with
    | none =>
      rw [hmaterial] at hold
      exact hready c hold j hj
    | some i =>
      rw [hmaterial] at hold
      exact (hset i).1 c hold j hj
  · rw [List.mem_singleton.mp hnew] at hj
    rw [hj]
    exact (hset j).2

end Steps

/-- What every submission keeps is kept by the loops. -/
theorem submitMeshes_keeps {motive : Renderer K P T → Prop} (hsubmit : ∀ r entity mesh, motive r →
    motive ((r.prepare mesh.material).submitMesh (Entity.command entity mesh))) (h : motive r) (group : List (Entity K)) :
    motive (r.submitMeshes frustum group) := by
  refine List.foldlRecOn group _ h fun r hr entity _ => List.foldlRecOn entity.meshes _ hr fun r hr mesh _ => ?_
  unfold check
  split
  · exact hsubmit r entity mesh hr
  · exact hr

variable {textures : Nat → PBRMaterialTextures T} (tan : K → K) (clip : ClipControl)

/-- After a frame every command has the set that is wanted, and the materials have the textures they were given. -/
theorem Tracks.frame (h : r.Tracks defaultTexture textures) (f : Frame K P T) :
    (r.frame tan clip f).Tracks defaultTexture (fun i => texturesAfter i (textures i) f.changes) ∧
      (r.frame tan clip f).Ready ∧ (r.frame tan clip f).pipeline = f.pipeline := by
  have hstart : ({ r with pipeline := f.pipeline } : Renderer K P T).Tracks defaultTexture textures :=
    ⟨h.coherent, h.default_eq, h.textures_eq⟩
  have hchanged := hstart.changes f.changes
  refine @submitMeshes_keeps _ _ _ _ _ _ _ (fun r => r.Tracks defaultTexture
    (fun i => texturesAfter i (textures i) f.changes) ∧ r.Ready ∧ r.pipeline = f.pipeline) ?_ ?_ f.group
  · rintro r entity mesh ⟨htracks, hready, hpipeline⟩
    refine ⟨?_, hready.submit htracks (entity.command mesh), ?_⟩
    · have hprepared := htracks.prepare mesh.material
      exact ⟨hprepared.coherent, hprepared.default_eq, hprepared.textures_eq⟩
    · rw [← hpipeline]
      cases mesh.material <;> rfl
  · exact ⟨⟨hchanged.coherent, hchanged.default_eq, hchanged.textures_eq⟩,
      fun _ hcommand => absurd hcommand List.not_mem_nil, pipeline_changes _⟩

theorem Tracks.run (h : r.Tracks defaultTexture textures) (frames : List (Frame K P T)) :
    (r.run tan clip frames).Tracks defaultTexture
      fun i => texturesAfter i (textures i) (frames.flatMap Frame.changes) := by
  induction frames generalizing r textures with
  | nil => exact h
  | cons f frames ih =>
    simp only [List.flatMap_cons, texturesAfter_append]
    exact ih (h.frame tan clip f).1

/-- In every frame of a run, what a mesh is drawn with was made for the pipeline of that frame and for the textures that
its material has then. -/
theorem draws_current (r : Renderer K P T) (textures : Nat → PBRMaterialTextures T)
    (hloaded : ∀ i, r.materials i = .loaded (textures i)) (frames : List (Frame K P T)) (f : Frame K P T) :
    let shown := (r.run tan clip frames).frame tan clip f
    ∀ command ∈ shown.commandQueue, ∀ i, command.material = some i →
      (shown.draw command).descriptorSet = some ⟨f.pipeline,
        (texturesAfter i (textures i) ((frames ++ [f]).flatMap Frame.changes)).imageInfos r.defaultTexture⟩ := by
  intro shown command hcommand i hi
  have hstart : r.Tracks r.defaultTexture textures := by
    refine ⟨fun i => ?_, rfl, fun i => ?_⟩
    · rw [hloaded i]
      exact Material.coherent_loaded _
    · rw [hloaded i]
      rfl
  obtain ⟨htracks, hready, hpipeline⟩ := (hstart.run tan clip frames).frame tan clip f
  have hset := hready command hcommand i hi
  have hdraw : (shown.draw command).descriptorSet = (shown.materials i).descriptorSet := by
    rw [draw, hi]
  rw [hdraw, hset, Material.current, htracks.textures_eq i, htracks.default_eq, hpipeline]
  rw [List.flatMap_append, texturesAfter_append, List.flatMap_singleton]

end Renderer

end Sets

/-- A frame with the mesh, before which its material gets a texture. -/
def litFrame : Frame ℚ Nat String :=
  ⟨[⟨0, .albedo, some "bricks"⟩], 1, ((CameraConstruction.orthographic (1 : ℚ) 1).camera), .initial, [boxEntity ℚ]⟩

theorem Renderer.draws_current_lit :
    let shown := ((newRenderer ℚ).run id .RH_NO [litFrame]).frame id .RH_NO litFrame
    (shown.draw ((boxEntity ℚ).command (box ℚ))).descriptorSet =
      some ⟨1, ({ noTextures with albedo := some "bricks" } : PBRMaterialTextures String).imageInfos "white"⟩ := by
  intro shown
  have hmem : (boxEntity ℚ).command (box ℚ) ∈ shown.commandQueue := by decide +kernel
  exact draws_current id .RH_NO (newRenderer ℚ) (fun _ => noTextures) (fun _ => rfl) [litFrame] litFrame _ hmem 0 rfl

end Lumos.Graphics.Deferred
