import Lumos.Core.VFS
import Lumos.Scene.ComponentArchive

/-!
# What a component is loaded as

For each component type, what comes back of a component that has been saved, over the
instance it is loaded into, and when that is the component itself.
-/
namespace Lumos.Serialisation

open Maths FloatArithmetic FloatLiterals Library.Archive
open Lumos.Scene (Hierarchy)

variable {K ε : Type}

section Reads

variable {A : Assets K} (rest : Saved K ε)

/-! ## Members that all come back -/

theorem Transform.run_load (t₀ t : Transform K) :
    StateT.run (t₀.load : Load K ε (Transform K)) (t.save ++ rest) = .ok (t, rest) := rfl

theorem NameComponent.run_load (n₀ n : NameComponent) :
    StateT.run (n₀.load : Load K ε NameComponent) (n.save ++ rest) = .ok (n, rest) := rfl

theorem ActiveComponent.run_load (a₀ a : ActiveComponent) :
    StateT.run (a₀.load : Load K ε ActiveComponent) (a.save ++ rest) = .ok (a, rest) := rfl

theorem run_loadHierarchy (h₀ h : Hierarchy ε) :
    StateT.run (loadHierarchy h₀ : Load K ε (Hierarchy ε)) (saveHierarchy h ++ rest) = .ok (h, rest) := rfl

theorem Light.run_load (l₀ l : Light K) :
    StateT.run (l₀.load : Load K ε (Light K)) (l.save ++ rest) = .ok (l, rest) := rfl

theorem Environment.run_load (e₀ e : Environment K) :
    StateT.run (e₀.load : Load K ε (Environment K)) (e.save ++ rest) = .ok (e, rest) := rfl

theorem DefaultCameraController.run_load (c₀ c : DefaultCameraController) :
    StateT.run (c₀.load : Load K ε DefaultCameraController) (c.save ++ rest) = .ok (c, rest) := rfl

/-! ## Members that are not saved -/

/-- The projection mode stays that of the instance. -/
theorem Camera.run_load (c₀ c : Camera K) :
    StateT.run (c₀.load : Load K ε (Camera K)) (c.save ++ rest) =
      .ok ({ c with orthographic := c₀.orthographic }, rest) := rfl

/-! ## Files -/

/-- Paths are saved as the virtual file system makes them. -/
theorem Assets.absoulePathToVFS_toList (v : Core.VFS)
    (h : v.entries = A.mountPoints.map fun mountPoint => ⟨mountPoint.1.toList, mountPoint.2.map String.toList⟩)
    (path : String) : (A.absoulePathToVFS path).toList = (v.absoulePathToVFS path.toList).getD path.toList := by
  have hmount : ∀ mountPoint : String × List String,
      (mountPoint.2.findSome? (replaceMounted path mountPoint.1)).map String.toList =
        (mountPoint.2.map String.toList).findSome? fun vfsPath =>
          if vfsPath <:+: path.toList then
            some ('/' :: '/' :: mountPoint.1.toList ++ path.toList.drop vfsPath.length)
          else none := by
    intro mountPoint
    rw [List.map_findSome?, List.findSome?_map]
    congr 1
    funext vfsPath
    by_cases hinfix : vfsPath.toList <:+: path.toList <;> simp [replaceMounted, hinfix, String.length_toList]
  rw [Assets.absoulePathToVFS, Core.VFS.absoulePathToVFS, h, List.findSome?_map, ← Option.getD_map String.toList,
    List.map_findSome?]
  congr 2
  funext mountPoint
  exact hmount mountPoint

theorem LuaScriptComponent.run_load (l₀ l : LuaScriptComponent) :
    StateT.run (l₀.load A : Load K ε LuaScriptComponent) (l.save A ++ rest) =
      .ok (l.loadScript A (A.absoulePathToVFS l.fileName), rest) := rfl

/-- A texture that is made again from its path, over another one. -/
def reloadTexture (texture₀ texture : Option String) : Option String :=
  createTexture (texturePath texture) texture₀

def Material.reload (m₀ m : Material K) : Material K :=
  { m with textures := {
      albedo := reloadTexture m₀.textures.albedo m.textures.albedo
      normal := reloadTexture m₀.textures.normal m.textures.normal
      metallic := reloadTexture m₀.textures.metallic m.textures.metallic
      roughness := reloadTexture m₀.textures.roughness m.textures.roughness
      ao := reloadTexture m₀.textures.ao m.textures.ao
      emissive := reloadTexture m₀.textures.emissive m.textures.emissive } }

theorem Material.run_load (m₀ m : Material K) :
    StateT.run (m₀.load : Load K ε (Material K)) (m.save ++ rest) = .ok (m₀.reload m, rest) := rfl

theorem Sprite.run_load (s₀ s : Sprite K) :
    StateT.run (s₀.load : Load K ε (Sprite K)) (s.save A ++ rest) =
      .ok ({ s with texture := reloadTexture s₀.texture (s.texture.map A.absoulePathToVFS) }, rest) := rfl

variable [FloatLiterals K]

theorem run_loadMaterial (m : Option (Material K)) :
    StateT.run (loadMaterial : Load K ε (Option (Material K))) (saveMaterial m ++ rest) =
      .ok (m.map Material.new.reload, rest) := by
  cases m with
  | none => rfl
  | some m =>
    rw [loadMaterial, saveMaterial, List.cons_append, run_nvp_bind, if_pos rfl,
      run_bind_ok (Material.run_load rest Material.new m)]
    rfl

/-- What is left of the meshes of a model, of which the first had this material. -/
def Model.reloadMeshes (A : Assets K) (m : Model K) (material : Option (Material K)) : List (Mesh K) :=
  if m.primitiveType ≠ .file then [⟨material.map Material.new.reload⟩]
  else A.loadModel (A.absoulePathToVFS m.filePath)

/-- Nothing was saved of a model without meshes, and reading it is an exception. -/
def Model.reload (A : Assets K) (m : Model K) : Except Failure (Model K) :=
  match m.meshes with
  | [] => .error .exception
  | front :: _ => .ok { m with
      filePath := A.absoulePathToVFS m.filePath
      meshes := m.reloadMeshes A front.material }

theorem Model.run_load (m₀ m : Model K) (hrest : Unnamed rest) :
    StateT.run (m₀.load A : Load K ε (Model K)) (m.save A ++ rest) = (m.reload A).map (·, rest) := by
  obtain ⟨primitiveType, meshes, filePath⟩ := m
  cases meshes with
  | nil => exact run_bind_error (run_nvp_of_unnamed (by decide) hrest)
  | cons front meshes =>
    simp only [Model.load, Model.save, List.cons_append, run_nvp_bind]
    rw [run_bind_ok (run_loadMaterial rest front.material)]
    rfl

def AnimatedSprite.reload (s₀ s : AnimatedSprite K) : Except Failure (AnimatedSprite K) :=
  AnimatedSprite.setState { s with texture := reloadTexture s₀.texture s.texture } s.state

theorem AnimatedSprite.run_load (s₀ s : AnimatedSprite K) :
    StateT.run (s₀.load : Load K ε (AnimatedSprite K)) (s.save ++ rest) = (s₀.reload s).map (·, rest) := by
  have hlift : StateT.run (s₀.load : Load K ε (AnimatedSprite K)) (s.save ++ rest) =
      (do let s ← s₀.reload s; return (s, rest)) := rfl
  rw [hlift]
  cases s₀.reload s <;> rfl

def SoundNode.reload (n : SoundNode K) : SoundNode K := { n with sound := reloadTexture none n.sound }

theorem SoundComponent.run_load (c : SoundComponent K) :
    StateT.run (SoundComponent.load : Load K ε (SoundComponent K)) (c.soundNode.save ++ rest) =
      .ok (⟨c.soundNode.reload⟩, rest) := rfl

/-! ## Bodies -/

/-- The shape of these dimensions. -/
def CollisionShape.rebuild : CollisionShape K → CollisionShape K
  | cuboid half _ => cuboid half (Matrix4.scaling half)
  | sphere radius _ => sphere radius (Matrix4.scaling (Vector3.fill radius))
  | pyramid half _ _ => pyramid half (Matrix4.scaling half) (pyramidNormals half)
  | capsule radius height localTransform => capsule radius height localTransform
  | hull half _ => hull half (Matrix4.scaling half)

theorem CollisionShape.run_load {shape : CollisionShape K} {saved : Saved K ε} (h : shape.save = some saved) :
    StateT.run (CollisionShape.load shape.type : Load K ε (CollisionShape K)) (saved ++ rest) =
      .ok (shape.rebuild, rest) := by
  cases shape with
  | capsule => cases h
  | _ =>
    cases h
    rfl

theorem run_loadShape {shape : Option (CollisionShape K)} {saved : Saved K ε}
    (h : saveShape shape = some saved) :
    StateT.run (loadShape : Load K ε (Option (CollisionShape K))) (saved ++ rest) =
      .ok (shape.map CollisionShape.rebuild, rest) := by
  cases shape with
  | none =>
    cases h
    rfl
  | some shape =>
    obtain ⟨saved', hsaved, rfl⟩ := Option.map_eq_some_iff.mp h
    rw [loadShape, List.cons_append, run_nvp_bind, run_bind_ok (CollisionShape.run_load rest hsaved)]
    rfl

/-- The body with the mass, the inertia and the flag of a new one. -/
def RigidBody3D.reload (b : RigidBody3D K) : Except Failure (RigidBody3D K) :=
  RigidBody3D.collisionShapeUpdated { b with
    invMass := (RigidBody3D.new : RigidBody3D K).invMass
    invInertia := (RigidBody3D.new : RigidBody3D K).invInertia
    atRest := (RigidBody3D.new : RigidBody3D K).atRest
    collisionShape := b.collisionShape.map CollisionShape.rebuild }

theorem RigidBody3D.run_load {b : RigidBody3D K} {saved : Saved K ε} (h : b.save = some saved) :
    StateT.run (RigidBody3D.new.load : Load K ε (RigidBody3D K)) (saved ++ rest) =
      b.reload.map (·, rest) := by
  obtain ⟨shape, hshape, rfl⟩ := Option.map_eq_some_iff.mp h
  simp only [RigidBody3D.load, List.cons_append, List.append_assoc, List.nil_append, run_nvp_bind]
  rw [run_bind_ok (run_loadShape _ hshape), run_nvp_bind, StateT.run_lift]
  change (do let b ← b.reload; pure (b, rest)) = _
  cases b.reload <;> rfl

theorem Physics3DComponent.run_load {c : Physics3DComponent K} {saved : Saved K ε}
    (h : c.rigidBody.save = some saved) :
    StateT.run (Physics3DComponent.load : Load K ε (Physics3DComponent K)) (saved ++ rest) =
      (c.rigidBody.reload.map Physics3DComponent.mk).map (·, rest) := by
  rw [Physics3DComponent.load, StateT.run_bind, RigidBody3D.run_load rest h]
  cases c.rigidBody.reload <;> rfl

/-- The body with the mass and the flag of the default parameters. -/
def RigidBody2D.reload (b : RigidBody2D K) : RigidBody2D K :=
  { b with
    isStatic := false
    mass := 1
    customShapePositions := if b.shapeType = .custom then b.customShapePositions else [] }

theorem Physics2DComponent.run_load (c : Physics2DComponent K) :
    StateT.run (Physics2DComponent.load : Load K ε (Physics2DComponent K)) (c.rigidBody.save ++ rest) =
      .ok (⟨c.rigidBody.reload⟩, rest) := rfl

end Reads

/-! ## All of them -/

section All

variable [FloatLiterals K] {A : Assets K} {type : ComponentType} {c₀ c : Component K ε type}

/-- What a component that has been saved is loaded as over an instance. -/
def Component.reload (A : Assets K) : (type : ComponentType) → (c₀ c : Component K ε type) →
    Except Failure (Component K ε type)
  | .transform, _, c | .name, _, c | .active, _, c | .hierarchy, _, c | .light, _, c | .environment, _, c
  | .defaultCameraController, _, c => .ok c
  | .camera, c₀, c => .ok { c with orthographic := c₀.orthographic }
  | .luaScript, _, c => .ok (c.loadScript A (A.absoulePathToVFS c.fileName))
  | .model, _, c => Model.reload A c
  | .physics3D, _, c => c.rigidBody.reload.map Physics3DComponent.mk
  | .sprite, c₀, c => .ok { c with texture := reloadTexture c₀.texture (c.texture.map A.absoulePathToVFS) }
  | .physics2D, _, c => .ok ⟨c.rigidBody.reload⟩
  | .animatedSprite, c₀, c => AnimatedSprite.reload c₀ c
  | .sound, _, c => .ok ⟨c.soundNode.reload⟩

/-- What stands behind a component in a snapshot has no name. -/
theorem Component.run_load {saved rest : Saved K ε} (h : Component.save A type c = some saved)
    (hrest : Unnamed rest) :
    StateT.run (Component.load A type c₀) (saved ++ rest) = (Component.reload A type c₀ c).map (·, rest) := by
  cases type with
  | physics3D => exact Physics3DComponent.run_load rest h
  | transform => cases h; exact Transform.run_load rest c₀ c
  | name => cases h; exact NameComponent.run_load rest c₀ c
  | active => cases h; exact ActiveComponent.run_load rest c₀ c
  | hierarchy => cases h; exact run_loadHierarchy rest c₀ c
  | camera => cases h; exact Camera.run_load rest c₀ c
  | luaScript => cases h; exact LuaScriptComponent.run_load rest c₀ c
  | model => cases h; exact Model.run_load rest c₀ c hrest
  | light => cases h; exact Light.run_load rest c₀ c
  | environment => cases h; exact Environment.run_load rest c₀ c
  | sprite => cases h; exact Sprite.run_load rest c₀ c
  | physics2D => cases h; exact Physics2DComponent.run_load rest c
  | defaultCameraController => cases h; exact DefaultCameraController.run_load rest c₀ c
  | animatedSprite => cases h; exact AnimatedSprite.run_load rest c₀ c
  | sound => cases h; exact SoundComponent.run_load rest c

/-- The component can be saved and comes back as it was. -/
def Component.Restored (A : Assets K) (type : ComponentType) (c₀ c : Component K ε type) : Prop :=
  (Component.save A type c).isSome ∧ Component.reload A type c₀ c = .ok c

end All

end Lumos.Serialisation
