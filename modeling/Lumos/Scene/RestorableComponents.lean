import Lumos.Scene.ComponentRoundTrip

/-!
# Components that come back as they were

The conditions under which a component is loaded as it has been saved.
-/
namespace Lumos.Serialisation

open Maths FloatArithmetic FloatLiterals Library.Archive

variable {K ε : Type}

def Camera.Restorable (c : Camera K) : Prop := c.orthographic = false

/-- Its path is the one that is found for it. -/
def LuaScriptComponent.Restorable (A : Assets K) (l : LuaScriptComponent) : Prop :=
  (l.loadScript A (A.absoulePathToVFS l.fileName)).fileName = l.fileName

/-- A texture that does not come from a file has an empty path. -/
def Material.Restorable (m : Material K) : Prop :=
  m.textures.albedo ≠ some "" ∧ m.textures.normal ≠ some "" ∧ m.textures.metallic ≠ some "" ∧
    m.textures.roughness ≠ some "" ∧ m.textures.ao ≠ some "" ∧ m.textures.emissive ≠ some ""

/-- A model of a file is as the file has it, and a primitive has one mesh. -/
def Model.Restorable (A : Assets K) (m : Model K) : Prop :=
  A.absoulePathToVFS m.filePath = m.filePath ∧
    if m.primitiveType = .file then m.meshes ≠ [] ∧ A.loadModel m.filePath = m.meshes
    else ∃ material, m.meshes = [⟨material⟩] ∧ ∀ x ∈ material, Material.Restorable x

/-- Transform and normals are those of the dimensions. A capsule cannot be saved, and a hull is
saved without its vertices. -/
def CollisionShape.Restorable [FloatLiterals K] : CollisionShape K → Prop
  | cuboid half localTransform => localTransform = Matrix4.scaling half
  | sphere radius localTransform => localTransform = Matrix4.scaling (Vector3.fill radius)
  | pyramid half localTransform normals =>
    localTransform = Matrix4.scaling half ∧ normals = pyramidNormals half
  | capsule _ _ _ | hull _ _ => False

/-- The mass is that of a new body, the inertia follows from it, and the body is awake. -/
def RigidBody3D.Restorable [FloatLiterals K] (b : RigidBody3D K) : Prop :=
  b.invMass = (RigidBody3D.new : RigidBody3D K).invMass ∧ b.atRest = false ∧
    match b.collisionShape with
    | none => b.invInertia = (RigidBody3D.new : RigidBody3D K).invInertia
    | some shape => shape.Restorable ∧ b.invInertia = shape.buildInverseInertia b.invMass

/-- A texture from a file that the `VFS` knows by this path. -/
def Sprite.Restorable (A : Assets K) (s : Sprite K) : Prop :=
  ∀ path, s.texture = some path → path ≠ "" ∧ A.absoulePathToVFS path = path

/-- The body is dynamic and has the default mass, and only a custom shape has positions. -/
def RigidBody2D.Restorable [FloatLiterals K] (b : RigidBody2D K) : Prop :=
  b.isStatic = false ∧ b.mass = 1 ∧ (b.shapeType ≠ .custom → b.customShapePositions = [])

/-- The state is one of the states, and its frames have a texture. -/
def AnimatedSprite.Restorable (s : AnimatedSprite K) : Prop :=
  s.texture ≠ some "" ∧
    ∃ currentState, s.animationStates.lookup s.state = some currentState ∧
      (currentState.frames ≠ [] → s.texture ≠ none)

def SoundNode.Restorable (n : SoundNode K) : Prop := n.sound ≠ some ""

/-- A sprite without a texture keeps that of the sprite before it. -/
def Sprite.Follows (s₀ s : Sprite K) : Prop := s.texture = none → s₀.texture = none

section Conditions

variable {A : Assets K}

/-- A path that has been replaced starts with two slashes. -/
theorem replaceMounted_ne_empty {path key vfsPath found : String}
    (h : replaceMounted path key vfsPath = some found) : found ≠ "" := by
  obtain ⟨-, hreplaced⟩ := Option.ite_none_right_eq_some.mp h
  cases hreplaced
  intro hempty
  simpa using congrArg String.toList hempty

theorem absoulePathToVFS_ne_empty {path : String} (h : path ≠ "") : A.absoulePathToVFS path ≠ "" := by
  intro hempty
  rw [Assets.absoulePathToVFS, Option.getD_eq_iff] at hempty
  cases hempty with
  | inl hfound =>
    obtain ⟨mounted, -, hval⟩ := List.exists_of_findSome?_eq_some hfound
    obtain ⟨vfsPath, -, hreplace⟩ := List.exists_of_findSome?_eq_some hval
    exact replaceMounted_ne_empty hreplace rfl
  | inr hnone => exact h hnone.2

theorem reloadTexture_eq_iff {texture₀ texture : Option String} (h₀ : texture₀ ≠ some "") :
    reloadTexture texture₀ texture = texture ↔ texture ≠ some "" ∧ (texture = none → texture₀ = none) := by
  cases texture with
  | none => simp [reloadTexture, texturePath, createTexture]
  | some path =>
    by_cases hpath : path = ""
    · simp [reloadTexture, texturePath, createTexture, hpath, h₀]
    · simp [reloadTexture, texturePath, createTexture, hpath]

theorem Sprite.reload_eq_iff {s₀ s : Sprite K} (h₀ : s₀.texture ≠ some "") :
    { s with texture := reloadTexture s₀.texture (s.texture.map A.absoulePathToVFS) } = s ↔
      s.Restorable A ∧ s₀.Follows s := by
  obtain ⟨texture, position, scale, colour⟩ := s
  cases texture with
  | none => simp [reloadTexture, texturePath, createTexture, Sprite.Restorable, Sprite.Follows]
  | some path =>
    by_cases hempty : A.absoulePathToVFS path = ""
    · have hpath : path = "" := by
        by_contra h
        exact absoulePathToVFS_ne_empty h hempty
      subst hpath
      simp [reloadTexture, texturePath, createTexture, Sprite.Restorable, hempty, h₀]
    · have hpath (h : A.absoulePathToVFS path = path) : path ≠ "" := by
        rw [← h]
        exact hempty
      simpa [reloadTexture, texturePath, createTexture, Sprite.Restorable, Sprite.Follows, hempty] using hpath

theorem Material.reload_eq_iff [FloatLiterals K] (m : Material K) :
    Material.new.reload m = m ↔ m.Restorable := by
  obtain ⟨⟨albedo, normal, metallic, roughness, ao, emissive⟩, properties⟩ := m
  simp [Material.reload, Material.new, Material.Restorable, reloadTexture_eq_iff]

theorem Material.map_reload_eq_iff [FloatLiterals K] (material : Option (Material K)) :
    material.map Material.new.reload = material ↔ ∀ x ∈ material, Material.Restorable x := by
  cases material with
  | none => simp
  | some m => simp [Material.reload_eq_iff]

theorem Model.reload_eq_iff [FloatLiterals K] (m : Model K) : m.reload A = .ok m ↔ m.Restorable A := by
  obtain ⟨primitiveType, meshes, filePath⟩ := m
  cases meshes with
  | nil => simp [Model.reload, Model.Restorable]
  | cons front meshes =>
    obtain ⟨material⟩ := front
    by_cases hfile : primitiveType = .file
    · simp only [Model.reload, Model.Restorable, Model.reloadMeshes, hfile, if_true, ne_eq, not_true_eq_false,
        if_false, Except.ok.injEq, Model.mk.injEq, true_and, reduceCtorEq, not_false_eq_true]
      constructor
      · rintro ⟨hmeshes, hpath⟩
        exact ⟨hpath, hpath ▸ hmeshes⟩
      · rintro ⟨hpath, hmeshes⟩
        exact ⟨hpath.symm ▸ hmeshes, hpath⟩
    · simp only [Model.reload, Model.Restorable, Model.reloadMeshes, hfile, if_false, ne_eq, not_false_eq_true,
        if_true, Except.ok.injEq, Model.mk.injEq, true_and, List.cons.injEq, Mesh.mk.injEq,
        Material.map_reload_eq_iff]
      constructor
      · rintro ⟨⟨hmaterial, hmeshes⟩, hpath⟩
        exact ⟨hpath, material, ⟨rfl, hmeshes.symm⟩, hmaterial⟩
      · rintro ⟨hpath, _, ⟨rfl, hmeshes⟩, hmaterial⟩
        exact ⟨⟨hmaterial, hmeshes.symm⟩, hpath⟩

theorem AnimatedSprite.reload_eq_iff [FloatLiterals K] {s₀ s : AnimatedSprite K} (h₀ : s₀.texture ≠ some "") :
    s₀.reload s = .ok s ↔ s.Restorable ∧ s₀.toSprite.Follows s.toSprite := by
  have htexture : reloadTexture s₀.texture s.texture = s.texture ↔
      s.texture ≠ some "" ∧ s₀.toSprite.Follows s.toSprite := reloadTexture_eq_iff h₀
  simp only [AnimatedSprite.reload, AnimatedSprite.setState, AnimatedSprite.Restorable, Sprite.Follows]
  cases hstate : s.animationStates.lookup s.state with
  | none =>
    -- the missing state has been inserted
    constructor
    · intro h
      have hstates := congrArg AnimatedSprite.animationStates (Except.ok.inj h)
      have hfound := congrArg (Finmap.lookup s.state) hstates
      rw [Finmap.lookup_insert, hstate] at hfound
      cases hfound
    · rintro ⟨⟨-, currentState, hfound, -⟩, -⟩
      cases hfound
  | some currentState =>
    dsimp only
    constructor
    · intro h
      split_ifs at h with hframes
      have hsame : reloadTexture s₀.texture s.texture = s.texture :=
        congrArg (fun s => s.toSprite.texture) (Except.ok.inj h)
      obtain ⟨hpath, hfollows⟩ := htexture.mp hsame
      exact ⟨⟨hpath, currentState, rfl, fun h hnone => hframes ⟨h, hsame.trans hnone⟩⟩, hfollows⟩
    · rintro ⟨⟨hpath, currentState', hfound, hframes⟩, hfollows⟩
      cases hfound
      have hsame := htexture.mpr ⟨hpath, hfollows⟩
      rw [hsame, if_neg (fun h => hframes h.1 h.2)]

theorem SoundNode.reload_eq_iff (n : SoundNode K) : n.reload = n ↔ n.Restorable := by
  obtain ⟨position, radius, pitch, volume, velocity, looping, paused, referenceDistance, global, timeLeft,
    stationary, sound⟩ := n
  simp [SoundNode.reload, SoundNode.Restorable, reloadTexture_eq_iff]

theorem CollisionShape.rebuild_eq_iff [FloatLiterals K] (shape : CollisionShape K) :
    (shape.save : Option (Saved K ε)).isSome ∧ shape.rebuild = shape ∧ shape.type ≠ .hull ↔ shape.Restorable := by
  cases shape <;> simp [CollisionShape.save, CollisionShape.rebuild, CollisionShape.type,
    CollisionShape.Restorable, eq_comm]

theorem CollisionShape.buildInverseInertia_rebuild [FloatLiterals K] (shape : CollisionShape K) (invMass : K) :
    shape.rebuild.buildInverseInertia invMass = shape.buildInverseInertia invMass := by
  cases shape <;> rfl

theorem RigidBody3D.collisionShapeUpdated_eq [FloatLiterals K] {b : RigidBody3D K} {shape : CollisionShape K}
    (h : b.collisionShape = some shape) :
    b.collisionShapeUpdated =
      if shape.type = .hull then .error .fault
      else .ok { b with invInertia := shape.buildInverseInertia b.invMass } := by
  rw [RigidBody3D.collisionShapeUpdated, h]
  cases shape <;> rfl

theorem RigidBody3D.reload_eq_iff [FloatLiterals K] (b : RigidBody3D K) :
    (b.save : Option (Saved K ε)).isSome ∧ b.reload = .ok b ↔ b.Restorable := by
  obtain ⟨position, linearVelocity, force, invMass, trigger, orientation, angularVelocity, torque, invInertia,
    collisionShape, isStatic, elasticity, friction, atRest⟩ := b
  cases collisionShape with
  | none =>
    simp [RigidBody3D.save, saveShape, RigidBody3D.reload, RigidBody3D.collisionShapeUpdated,
      RigidBody3D.Restorable, RigidBody3D.new, eq_comm, and_comm]
  | some shape =>
    have hshape := CollisionShape.rebuild_eq_iff (ε := ε) shape
    have htype : shape.rebuild.type = shape.type := by cases shape <;> rfl
    rw [RigidBody3D.reload, RigidBody3D.collisionShapeUpdated_eq rfl, htype]
    simp only [RigidBody3D.Restorable, ← hshape]
    by_cases hhull : shape.type = .hull
    · simp [hhull]
    · simp only [hhull, RigidBody3D.save, saveShape, RigidBody3D.new, CollisionShape.buildInverseInertia_rebuild,
        Option.map_map, Option.isSome_map, Option.map_some, if_false, Except.ok.injEq, RigidBody3D.mk.injEq,
        Option.some.injEq, Bool.false_eq, true_and, ne_eq, not_false_eq_true, and_true]
      constructor
      · rintro ⟨hsave, rfl, hinertia, hrebuild, hrest⟩
        exact ⟨rfl, hrest, ⟨hsave, hrebuild⟩, hinertia.symm⟩
      · rintro ⟨rfl, hrest, ⟨hsave, hrebuild⟩, hinertia⟩
        exact ⟨hsave, rfl, hinertia.symm, hrebuild, hrest⟩

theorem RigidBody2D.reload_eq_iff [FloatLiterals K] (b : RigidBody2D K) : b.reload = b ↔ b.Restorable := by
  obtain ⟨position, angle, shapeType, mass, scale, customShapePositions, isStatic, friction⟩ := b
  by_cases hcustom : shapeType = .custom
  · simp [RigidBody2D.reload, RigidBody2D.Restorable, hcustom, eq_comm, and_comm]
  · simp [RigidBody2D.reload, RigidBody2D.Restorable, hcustom, eq_comm, and_comm, and_left_comm]

/-! ## All of them -/

/-- A relation along a list that is a property of each entry and a simpler relation. -/
theorem isChain_cons_iff {α : Type} {R T : α → α → Prop} {P Q : α → Prop} {a : α} {l : List α}
    (hR : ∀ a b, Q a → (R a b ↔ P b ∧ T a b)) (hQ : ∀ b, P b → Q b) (ha : Q a) :
    (a :: l).IsChain R ↔ (∀ b ∈ l, P b) ∧ (a :: l).IsChain T := by
  induction l generalizing a with
  | nil => simp
  | cons b l ih =>
    rw [List.isChain_cons_cons, List.isChain_cons_cons, List.forall_mem_cons, hR a b ha]
    constructor
    · rintro ⟨⟨hb, hab⟩, hl⟩
      have hrest := (ih (hQ b hb)).mp hl
      exact ⟨⟨hb, hrest.1⟩, hab, hrest.2⟩
    · rintro ⟨⟨hb, hl⟩, hab, hrest⟩
      exact ⟨⟨hb, hab⟩, (ih (hQ b hb)).mpr ⟨hl, hrest⟩⟩

variable [FloatLiterals K] {type : ComponentType} {c₀ c : Component K ε type}

def Component.Restorable (A : Assets K) : (type : ComponentType) → Component K ε type → Prop
  | .transform, _ | .name, _ | .active, _ | .hierarchy, _ | .light, _ | .environment, _
  | .defaultCameraController, _ => True
  | .camera, c => Camera.Restorable c
  | .luaScript, c => LuaScriptComponent.Restorable A c
  | .model, c => Model.Restorable A c
  | .physics3D, c => RigidBody3D.Restorable c.rigidBody
  | .sprite, c => Sprite.Restorable A c
  | .physics2D, c => RigidBody2D.Restorable c.rigidBody
  | .animatedSprite, c => AnimatedSprite.Restorable c
  | .sound, c => SoundNode.Restorable c.soundNode

/-- The second component can be loaded into the instance the first has been loaded into. -/
def Component.Follows : (type : ComponentType) → (c₀ c : Component K ε type) → Prop
  | .sprite, c₀, c => Sprite.Follows c₀ c
  | .animatedSprite, c₀, c => Sprite.Follows c₀.toSprite c.toSprite
  | _, _, _ => True

/-- What holds of a new instance and of one that a restorable component has been loaded into. -/
def Component.Reusable : (type : ComponentType) → Component K ε type → Prop
  | .camera, c => c.orthographic = false
  | .sprite, c => c.texture ≠ some ""
  | .animatedSprite, c => c.texture ≠ some ""
  | _, _ => True

theorem Component.reusable_new (type : ComponentType) : Reusable type (Component.new (K := K) ε type) := by
  cases type <;> simp [Reusable, Component.new, Camera.new, Sprite.new, AnimatedSprite.new]

theorem Component.Restorable.reusable (h : Restorable A type c) : Reusable type c := by
  cases type with
  | camera => exact h
  | sprite => exact fun hempty => (h "" hempty).1 rfl
  | animatedSprite => exact h.1
  | _ => exact trivial

theorem Component.restored_iff (h₀ : Reusable type c₀) :
    Restored A type c₀ c ↔ Restorable A type c ∧ Follows type c₀ c := by
  cases type with
  | camera =>
    have hsame : { c with orthographic := c₀.orthographic } = c ↔ Camera.Restorable c := by
      have hmode : c₀.orthographic = false := h₀
      obtain ⟨scale, aspectRatio, fov, near, far, orthographic⟩ := c
      simp [Camera.Restorable, hmode, eq_comm]
    simp [Restored, Component.save, Component.reload, Component.Restorable, Component.Follows, hsame]
  | luaScript =>
    have hsame : c.loadScript A (A.absoulePathToVFS c.fileName) = c ↔ LuaScriptComponent.Restorable A c :=
      ⟨congrArg LuaScriptComponent.fileName, fun h => congrArg LuaScriptComponent.mk h⟩
    simp [Restored, Component.save, Component.reload, Component.Restorable, Component.Follows, hsame]
  | model =>
    simp [Restored, Component.save, Component.reload, Component.Restorable, Component.Follows,
      Model.reload_eq_iff]
  | physics3D =>
    have hbody := RigidBody3D.reload_eq_iff (ε := ε) c.rigidBody
    have hmap : c.rigidBody.reload.map Physics3DComponent.mk = .ok c ↔ c.rigidBody.reload = .ok c.rigidBody := by
      cases c.rigidBody.reload with
      | error f => simp [Except.map]
      | ok b => simp [Except.map, ← Physics3DComponent.mk.injEq]
    simp only [Restored, Component.save, Component.reload, Component.Restorable, Component.Follows, hmap, hbody,
      and_true]
  | sprite =>
    simp [Restored, Component.save, Component.reload, Component.Restorable, Component.Follows,
      Sprite.reload_eq_iff h₀]
  | physics2D =>
    have hbody := RigidBody2D.reload_eq_iff c.rigidBody
    simp only [Restored, Component.save, Component.reload, Component.Restorable, Component.Follows, ← hbody]
    simp [← Physics2DComponent.mk.injEq]
  | animatedSprite =>
    simp [Restored, Component.save, Component.reload, Component.Restorable, Component.Follows,
      AnimatedSprite.reload_eq_iff h₀]
  | sound =>
    have hnode := SoundNode.reload_eq_iff c.soundNode
    simp only [Restored, Component.save, Component.reload, Component.Restorable, Component.Follows, ← hnode]
    simp [← SoundComponent.mk.injEq]
  | _ => simp [Restored, Component.save, Component.reload, Component.Restorable, Component.Follows]

theorem Component.follows_new : Follows type (Component.new ε type) c := by
  cases type with
  | sprite => exact fun _ => rfl
  | animatedSprite => exact fun _ => rfl
  | _ => exact trivial

/-- When the components of a pool are all restored, the first over a new instance. -/
theorem isChain_restored_iff {cs : List (Component K ε type)} :
    (Component.new ε type :: cs).IsChain (Component.Restored A type) ↔
      (∀ c ∈ cs, Component.Restorable A type c) ∧ cs.IsChain (Component.Follows type) := by
  have hchain := isChain_cons_iff (l := cs) (fun a b (ha : Component.Reusable type a) =>
    Component.restored_iff (A := A) (c := b) ha) (fun _ => Component.Restorable.reusable)
    (Component.reusable_new type)
  rw [hchain, List.isChain_cons, and_iff_right (fun _ _ => Component.follows_new)]

end Conditions

end Lumos.Serialisation
