import Lumos.Library.Archive
import Lumos.Scene.Components

/-!
# How components are saved and loaded

Saving and loading are separate functions of each component. Loading writes over an instance
that has been there before: a member that is not read, or not set from what is read, keeps
the value it had. Reading stops with an exception where the archive does not hold what is
asked for, and in undefined behaviour where a null pointer is used.
-/
namespace Lumos.Serialisation

open Maths FloatArithmetic FloatLiterals Library.Archive
open Lumos.Scene (Hierarchy)

/-- The kinds of values that go into an archive. -/
inductive Value (K ε : Type) where
  | bool (b : Bool)
  | int (i : Int)
  | unsigned (n : Nat)
  | float (x : K)
  | string (s : String)
  | vector2 (v : Vector2 K)
  | vector3 (v : Vector3 K)
  | vector4 (v : Vector4 K)
  | quaternion (q : Quaternion K)
  | vector2s (vs : List (Vector2 K))
  /-- `none` is `entt::null`. -/
  | entity (e : Option ε)
  /-- The identifiers of a registry. -/
  | entities (es : Finset ε)
  | primitiveType (t : PrimitiveType)
  | controllerType (t : ControllerType)
  | shape (s : Shape)
  | animationStates (states : Finmap fun _ : String => AnimationState K)
  /-- The type behind a pointer to the base class, `none` of a null pointer. -/
  | polymorphic (t : Option CollisionShapeType)

section Archived

variable {K ε : Type}

instance : Archived (Value K ε) Bool := ⟨.bool, fun | .bool b => some b | _ => none, fun _ => rfl⟩
instance : Archived (Value K ε) Int := ⟨.int, fun | .int i => some i | _ => none, fun _ => rfl⟩
instance : Archived (Value K ε) Nat := ⟨.unsigned, fun | .unsigned n => some n | _ => none, fun _ => rfl⟩
instance : Archived (Value K ε) K := ⟨.float, fun | .float x => some x | _ => none, fun _ => rfl⟩
instance : Archived (Value K ε) String := ⟨.string, fun | .string s => some s | _ => none, fun _ => rfl⟩

instance : Archived (Value K ε) (Vector2 K) :=
  ⟨.vector2, fun | .vector2 v => some v | _ => none, fun _ => rfl⟩

instance : Archived (Value K ε) (Vector3 K) :=
  ⟨.vector3, fun | .vector3 v => some v | _ => none, fun _ => rfl⟩

instance : Archived (Value K ε) (Vector4 K) :=
  ⟨.vector4, fun | .vector4 v => some v | _ => none, fun _ => rfl⟩

instance : Archived (Value K ε) (Quaternion K) :=
  ⟨.quaternion, fun | .quaternion q => some q | _ => none, fun _ => rfl⟩

instance : Archived (Value K ε) (List (Vector2 K)) :=
  ⟨.vector2s, fun | .vector2s vs => some vs | _ => none, fun _ => rfl⟩

instance : Archived (Value K ε) (Option ε) :=
  ⟨.entity, fun | .entity e => some e | _ => none, fun _ => rfl⟩

instance : Archived (Value K ε) (Finset ε) :=
  ⟨.entities, fun | .entities es => some es | _ => none, fun _ => rfl⟩

instance : Archived (Value K ε) PrimitiveType :=
  ⟨.primitiveType, fun | .primitiveType t => some t | _ => none, fun _ => rfl⟩

instance : Archived (Value K ε) ControllerType :=
  ⟨.controllerType, fun | .controllerType t => some t | _ => none, fun _ => rfl⟩

instance : Archived (Value K ε) Shape := ⟨.shape, fun | .shape s => some s | _ => none, fun _ => rfl⟩

instance : Archived (Value K ε) (Finmap fun _ : String => AnimationState K) :=
  ⟨.animationStates, fun | .animationStates states => some states | _ => none, fun _ => rfl⟩

instance : Archived (Value K ε) (Option CollisionShapeType) :=
  ⟨.polymorphic, fun | .polymorphic t => some t | _ => none, fun _ => rfl⟩

end Archived

/-- What the engine finds outside of the scene. -/
structure Assets (K : Type) where
  /-- `m_MountPoints` of the `VFS`, in the order in which they are gone through. -/
  mountPoints : List (String × List String)
  /-- Whether `VFS::ResolvePhysicalPath` finds a file. -/
  resolvePhysicalPath : String → Bool
  /-- The meshes `Model::LoadModel` adds. -/
  loadModel : String → List (Mesh K)

/-- `path.replace(0, vfsPath.length(), "//" + key)`, if `vfsPath` occurs in the path. -/
def replaceMounted (path key vfsPath : String) : Option String :=
  if vfsPath.toList <:+: path.toList then
    some (String.ofList (("//" ++ key).toList ++ path.toList.drop vfsPath.length))
  else none

/-- `VFS::AbsoulePathToVFS` -/
def Assets.absoulePathToVFS {K : Type} (A : Assets K) (path : String) : String :=
  (A.mountPoints.findSome? fun (key, val) => val.findSome? (replaceMounted path key)).getD path

variable {K ε : Type}

/-- The entries a component is saved as. -/
abbrev Saved (K ε : Type) := List (Entry (Value K ε))

abbrev Load (K ε α : Type) := Reader (Value K ε) α

/-! ## Components made of plain members -/

def Transform.save (t : Transform K) : Saved K ε :=
  [entry "Position" t.position, entry "Rotation" t.rotation, entry "Scale" t.scale]

def Transform.load (t : Transform K) : Load K ε (Transform K) := do
  let position ← nvp "Position"
  let rotation ← nvp "Rotation"
  let scale ← nvp "Scale"
  return { t with position, rotation, scale }

def NameComponent.save (n : NameComponent) : Saved K ε := [entry "Name" n.name]

def NameComponent.load (n : NameComponent) : Load K ε NameComponent := do
  let name ← nvp "Name"
  return { n with name }

def ActiveComponent.save (a : ActiveComponent) : Saved K ε := [entry "Active" a.active]

def ActiveComponent.load (a : ActiveComponent) : Load K ε ActiveComponent := do
  let active ← nvp "Active"
  return { a with active }

def saveHierarchy (h : Hierarchy ε) : Saved K ε :=
  [entry "First" h.first, entry "Next" h.next, entry "Previous" h.prev, entry "Parent" h.parent]

def loadHierarchy (h : Hierarchy ε) : Load K ε (Hierarchy ε) := do
  let first ← nvp "First"
  let next ← nvp "Next"
  let prev ← nvp "Previous"
  let parent ← nvp "Parent"
  return { h with first, next, prev, parent }

def Camera.save (c : Camera K) : Saved K ε :=
  [entry "Scale" c.scale, entry "Aspect" c.aspectRatio, entry "FOV" c.fov, entry "Near" c.near,
    entry "Far" c.far]

def Camera.load (c : Camera K) : Load K ε (Camera K) := do
  let scale ← nvp "Scale"
  let aspectRatio ← nvp "Aspect"
  let fov ← nvp "FOV"
  let near ← nvp "Near"
  let far ← nvp "Far"
  return { c with scale, aspectRatio, fov, near, far }

/-- `serialize` of a light, which names none of its members. -/
def Light.save (l : Light K) : Saved K ε :=
  [entry "" l.position, entry "" l.colour, entry "" l.type, entry "" l.angle, entry "" l.direction,
    entry "" l.intensity, entry "" l.radius]

def Light.load (l : Light K) : Load K ε (Light K) := do
  let position ← nvp ""
  let colour ← nvp ""
  let type ← nvp ""
  let angle ← nvp ""
  let direction ← nvp ""
  let intensity ← nvp ""
  let radius ← nvp ""
  return { l with position, colour, type, angle, direction, intensity, radius }

def Environment.save (e : Environment K) : Saved K ε :=
  [entry "" e.filePath, entry "" e.numMips, entry "" e.width, entry "" e.height, entry "" e.fileType,
    entry "" e.irrFactor]

/-- The textures loaded afterwards leave these members as they are. -/
def Environment.load (e : Environment K) : Load K ε (Environment K) := do
  let filePath ← nvp ""
  let numMips ← nvp ""
  let width ← nvp ""
  let height ← nvp ""
  let fileType ← nvp ""
  let irrFactor ← nvp ""
  return { e with filePath, numMips, width, height, fileType, irrFactor }

def DefaultCameraController.save (c : DefaultCameraController) : Saved K ε := [entry "ControllerType" c.type]

def DefaultCameraController.load (c : DefaultCameraController) : Load K ε DefaultCameraController := do
  let type ← nvp "ControllerType"
  return { c with type }

/-! ## Components that name files -/

def LuaScriptComponent.save (A : Assets K) (l : LuaScriptComponent) : Saved K ε :=
  [entry "FilePath" (A.absoulePathToVFS l.fileName)]

/-- `LoadScript`, which turns the path into one of the `VFS` if it leads to a file. -/
def LuaScriptComponent.loadScript (A : Assets K) (l : LuaScriptComponent) (fileName : String) :
    LuaScriptComponent :=
  { l with fileName := if A.resolvePhysicalPath fileName then A.absoulePathToVFS fileName else fileName }

def LuaScriptComponent.load (A : Assets K) (l : LuaScriptComponent) : Load K ε LuaScriptComponent := do
  let fileName ← nvp "FilePath"
  return l.loadScript A fileName

/-- `m_Texture ? m_Texture->GetFilepath() : ""` -/
def texturePath (texture : Option String) : String := texture.getD ""

/-- A texture made from a file, unless the path is empty. -/
def createTexture (path : String) (texture : Option String) : Option String :=
  if path ≠ "" then some path else texture

def Material.save (m : Material K) : Saved K ε :=
  [entry "Albedo" (texturePath m.textures.albedo), entry "Normal" (texturePath m.textures.normal),
    entry "Metallic" (texturePath m.textures.metallic), entry "Roughness" (texturePath m.textures.roughness),
    entry "Ao" (texturePath m.textures.ao), entry "Emissive" (texturePath m.textures.emissive),
    entry "albedoColour" m.properties.albedoColour, entry "roughnessColour" m.properties.roughnessColour,
    entry "metallicColour" m.properties.metallicColour, entry "emissiveColour" m.properties.emissiveColour,
    entry "usingAlbedoMap" m.properties.usingAlbedoMap, entry "usingMetallicMap" m.properties.usingMetallicMap,
    entry "usingRoughnessMap" m.properties.usingRoughnessMap, entry "usingNormalMap" m.properties.usingNormalMap,
    entry "usingAOMap" m.properties.usingAOMap, entry "usingEmissiveMap" m.properties.usingEmissiveMap,
    entry "workflow" m.properties.workflow]

def Material.load (m : Material K) : Load K ε (Material K) := do
  let albedo ← nvp "Albedo"
  let normal ← nvp "Normal"
  let metallic ← nvp "Metallic"
  let roughness ← nvp "Roughness"
  let ao ← nvp "Ao"
  let emissive ← nvp "Emissive"
  let albedoColour ← nvp "albedoColour"
  let roughnessColour ← nvp "roughnessColour"
  let metallicColour ← nvp "metallicColour"
  let emissiveColour ← nvp "emissiveColour"
  let usingAlbedoMap ← nvp "usingAlbedoMap"
  let usingMetallicMap ← nvp "usingMetallicMap"
  let usingRoughnessMap ← nvp "usingRoughnessMap"
  let usingNormalMap ← nvp "usingNormalMap"
  let usingAOMap ← nvp "usingAOMap"
  let usingEmissiveMap ← nvp "usingEmissiveMap"
  let workflow ← nvp "workflow"
  return {
    textures := {
      albedo := createTexture albedo m.textures.albedo
      normal := createTexture normal m.textures.normal
      metallic := createTexture metallic m.textures.metallic
      roughness := createTexture roughness m.textures.roughness
      ao := createTexture ao m.textures.ao
      emissive := createTexture emissive m.textures.emissive }
    properties := {
      albedoColour, roughnessColour, metallicColour, emissiveColour, usingAlbedoMap, usingMetallicMap,
      usingRoughnessMap, usingNormalMap, usingAOMap, usingEmissiveMap, workflow } }

/-- A `unique_ptr` to a material: whether there is one, and the material. -/
def saveMaterial : Option (Material K) → Saved K ε
  | none => [entry "Material" false]
  | some m => entry "Material" true :: m.save

def loadMaterial [FloatLiterals K] : Load K ε (Option (Material K)) := do
  let isValid : Bool ← nvp "Material"
  if isValid then
    let m ← Material.new.load
    return some m
  else return none

/-- Nothing is saved of a model without meshes. -/
def Model.save (A : Assets K) (m : Model K) : Saved K ε :=
  match m.meshes with
  | [] => []
  | front :: _ =>
    entry "PrimitiveType" m.primitiveType :: entry "FilePath" (A.absoulePathToVFS m.filePath) ::
      saveMaterial front.material

/-- A model from a file takes its materials from there. -/
def Model.load [FloatLiterals K] (A : Assets K) (m : Model K) : Load K ε (Model K) := do
  let primitiveType ← nvp "PrimitiveType"
  let filePath ← nvp "FilePath"
  let material ← loadMaterial
  let meshes := if primitiveType ≠ .file then [⟨material⟩] else A.loadModel filePath
  return { m with primitiveType, filePath, meshes }

def Sprite.save (A : Assets K) (s : Sprite K) : Saved K ε :=
  [entry "TexturePath" (texturePath (s.texture.map A.absoulePathToVFS)), entry "Position" s.position,
    entry "Scale" s.scale, entry "Colour" s.colour]

def Sprite.load (s : Sprite K) : Load K ε (Sprite K) := do
  let textureFilePath ← nvp "TexturePath"
  let position ← nvp "Position"
  let scale ← nvp "Scale"
  let colour ← nvp "Colour"
  return { s with position, scale, colour, texture := createTexture textureFilePath s.texture }

def AnimatedSprite.save (s : AnimatedSprite K) : Saved K ε :=
  [entry "TexturePath" (texturePath s.texture), entry "Position" s.position, entry "Scale" s.scale,
    entry "Colour" s.colour, entry "AnimationFrames" s.animationStates, entry "State" s.state]

/-- `SetState`. The UVs are asked for, which inserts the state if there is none of this name and
divides by the size of the texture if the state has frames. -/
def AnimatedSprite.setState [FloatLiterals K] (s : AnimatedSprite K) (state : String) :
    Except Failure (AnimatedSprite K) :=
  match s.animationStates.lookup state with
  | none => .ok { s with state, animationStates := s.animationStates.insert state AnimationState.new }
  | some currentState =>
    if currentState.frames ≠ [] ∧ s.texture = none then .error .fault else .ok { s with state }

def AnimatedSprite.load [FloatLiterals K] (s : AnimatedSprite K) : Load K ε (AnimatedSprite K) := do
  let textureFilePath ← nvp "TexturePath"
  let position ← nvp "Position"
  let scale ← nvp "Scale"
  let colour ← nvp "Colour"
  let animationStates ← nvp "AnimationFrames"
  let state : String ← nvp "State"
  let texture := createTexture textureFilePath s.texture
  StateT.lift (AnimatedSprite.setState { s with position, scale, colour, animationStates, texture } state)

def SoundNode.save (n : SoundNode K) : Saved K ε :=
  [entry "Position" n.position, entry "Radius" n.radius, entry "Pitch" n.pitch, entry "Volume" n.volume,
    entry "Velocity" n.velocity, entry "Looping" n.looping, entry "Paused" n.paused,
    entry "ReferenceDistance" n.referenceDistance, entry "Global" n.global, entry "TimeLeft" n.timeLeft,
    entry "Stationary" n.stationary, entry "SoundNodePath" (texturePath n.sound)]

def SoundNode.load (n : SoundNode K) : Load K ε (SoundNode K) := do
  let position ← nvp "Position"
  let radius ← nvp "Radius"
  let pitch ← nvp "Pitch"
  let volume ← nvp "Volume"
  let velocity ← nvp "Velocity"
  let looping ← nvp "Looping"
  let paused ← nvp "Paused"
  let referenceDistance ← nvp "ReferenceDistance"
  let global ← nvp "Global"
  let timeLeft ← nvp "TimeLeft"
  let stationary ← nvp "Stationary"
  let soundFilePath ← nvp "SoundNodePath"
  return { position, radius, pitch, volume, velocity, looping, paused, referenceDistance, global, timeLeft,
           stationary, sound := createTexture soundFilePath n.sound }

def SoundComponent.load [FloatLiterals K] : Load K ε (SoundComponent K) := do
  let soundNode ← SoundNode.new.load
  return ⟨soundNode⟩

/-! ## Rigid bodies -/

/-- The dimensions; of a capsule, whose type is not registered, cereal throws. -/
def CollisionShape.save : CollisionShape K → Option (Saved K ε)
  | cuboid cuboidHalfDimensions _ => some [entry "" cuboidHalfDimensions]
  | sphere radius _ => some [entry "" radius]
  | pyramid pyramidHalfDimensions _ _ => some [entry "" pyramidHalfDimensions]
  | capsule _ _ _ => none
  | hull halfDimensions _ => some [entry "" halfDimensions]

/-- A new shape of this type that has been loaded. -/
def CollisionShape.load [FloatLiterals K] : CollisionShapeType → Load K ε (CollisionShape K)
  | .cuboid => do
    let half ← nvp ""
    return cuboid half (Matrix4.scaling half)
  | .sphere => do
    let radius ← nvp ""
    return sphere radius (Matrix4.scaling (Vector3.fill radius))
  | .pyramid => do
    let half ← nvp ""
    return pyramid half (Matrix4.scaling half) (pyramidNormals half)
  | .capsule => fail .exception
  | .hull => do
    let half ← nvp ""
    return hull half (Matrix4.scaling half)

/-- A `unique_ptr` to a shape. -/
def saveShape : Option (CollisionShape K) → Option (Saved K ε)
  | none => some [entry "CollisionShape" (none : Option CollisionShapeType)]
  | some shape => shape.save.map (entry "CollisionShape" (some shape.type) :: ·)

def loadShape [FloatLiterals K] : Load K ε (Option (CollisionShape K)) := do
  let type ← nvp "CollisionShape"
  match type with
  | none => return none
  | some type =>
    let shape ← CollisionShape.load type
    return some shape

def RigidBody3D.save [FloatLiterals K] (b : RigidBody3D K) : Option (Saved K ε) :=
  (saveShape b.collisionShape).map fun shape =>
    [entry "Position" b.position, entry "Orientation" b.orientation,
      entry "LinearVelocity" b.linearVelocity, entry "Force" b.force, entry "Mass" (1 / b.invMass),
      entry "AngularVelocity" b.angularVelocity, entry "Torque" b.torque, entry "Static" b.isStatic,
      entry "Friction" b.friction, entry "Elasticity" b.elasticity] ++ shape ++ [entry "Trigger" b.trigger]

/-- `CollisionShapeUpdated`. The bounding box is asked of the vertices, and a hull that has just
been loaded has none to give. -/
def RigidBody3D.collisionShapeUpdated [FloatLiterals K] (b : RigidBody3D K) :
    Except Failure (RigidBody3D K) :=
  match b.collisionShape with
  | none => .ok b
  | some (.hull _ _) => .error .fault
  | some shape => .ok { b with invInertia := shape.buildInverseInertia b.invMass }

/-- The mass is read into a temporary. -/
def RigidBody3D.load [FloatLiterals K] (b : RigidBody3D K) : Load K ε (RigidBody3D K) := do
  let position ← nvp "Position"
  let orientation ← nvp "Orientation"
  let linearVelocity ← nvp "LinearVelocity"
  let force ← nvp "Force"
  let _mass : K ← nvp "Mass"
  let angularVelocity ← nvp "AngularVelocity"
  let torque ← nvp "Torque"
  let isStatic ← nvp "Static"
  let friction ← nvp "Friction"
  let elasticity ← nvp "Elasticity"
  let collisionShape ← loadShape
  let trigger ← nvp "Trigger"
  StateT.lift (RigidBody3D.collisionShapeUpdated { b with
    position, orientation, linearVelocity, force, angularVelocity, torque, isStatic, friction, elasticity
    collisionShape, trigger })

def Physics3DComponent.load [FloatLiterals K] : Load K ε (Physics3DComponent K) := do
  let rigidBody ← RigidBody3D.new.load
  return ⟨rigidBody⟩

structure RigidBodyParameters (K : Type) where
  mass : K
  position : Vector3 K
  scale : Vector3 K
  isStatic : Bool
  shape : Shape
  customShapePositions : List (Vector2 K)

def RigidBodyParameters.new [FloatLiterals K] : RigidBodyParameters K := ⟨1, .fill 0, .fill 1, false, .square, []⟩

/-- `Init`, with a new `b2Body`. -/
def RigidBody2D.init [FloatLiterals K] (b : RigidBody2D K) (params : RigidBodyParameters K) : RigidBody2D K :=
  { b with
    isStatic := params.isStatic
    shapeType := params.shape
    mass := params.mass
    scale := params.scale
    position := ⟨params.position.x, params.position.y⟩
    angle := 0
    customShapePositions :=
      if params.shape = .custom then params.customShapePositions else b.customShapePositions }

def RigidBody2D.setOrientation (b : RigidBody2D K) (angle : K) : RigidBody2D K := { b with angle }

def RigidBody2D.save (b : RigidBody2D K) : Saved K ε :=
  [entry "Position" b.position, entry "Friction" b.friction, entry "Angle" b.angle,
    entry "Static" b.isStatic, entry "Mass" b.mass, entry "Scale" b.scale, entry "Shape" b.shapeType,
    entry "CustomShapePos" b.customShapePositions]

def RigidBody2D.load [FloatLiterals K] (b : RigidBody2D K) : Load K ε (RigidBody2D K) := do
  let pos : Vector2 K ← nvp "Position"
  let friction ← nvp "Friction"
  let angle ← nvp "Angle"
  let isStatic ← nvp "Static"
  let mass ← nvp "Mass"
  let scale ← nvp "Scale"
  let shapeType ← nvp "Shape"
  let customShapePositions ← nvp "CustomShapePos"
  let b := { b with friction, isStatic, mass, shapeType }
  let params := { RigidBodyParameters.new with
    scale, customShapePositions, shape := shapeType, position := ⟨pos.x, pos.y, 1⟩ }
  return (b.init params).setOrientation angle

def Physics2DComponent.load [FloatLiterals K] : Load K ε (Physics2DComponent K) := do
  let rigidBody ← RigidBody2D.new.load
  return ⟨rigidBody⟩

/-! ## All of them -/

/-- The entries of a component; `none` where cereal throws. -/
def Component.save [FloatLiterals K] (A : Assets K) :
    (type : ComponentType) → Component K ε type → Option (Saved K ε)
  | .transform, c => some (Transform.save c)
  | .name, c => some (NameComponent.save c)
  | .active, c => some (ActiveComponent.save c)
  | .hierarchy, c => some (saveHierarchy c)
  | .camera, c => some (Camera.save c)
  | .luaScript, c => some (LuaScriptComponent.save A c)
  | .model, c => some (Model.save A c)
  | .light, c => some (Light.save c)
  | .physics3D, c => RigidBody3D.save c.rigidBody
  | .environment, c => some (Environment.save c)
  | .sprite, c => some (Sprite.save A c)
  | .physics2D, c => some (RigidBody2D.save c.rigidBody)
  | .defaultCameraController, c => some (DefaultCameraController.save c)
  | .animatedSprite, c => some (AnimatedSprite.save c)
  | .sound, c => some (SoundNode.save c.soundNode)

/-- Load over an instance; the bodies and the sound nodes are new each time. -/
def Component.load [FloatLiterals K] (A : Assets K) :
    (type : ComponentType) → Component K ε type → Load K ε (Component K ε type)
  | .transform, c => Transform.load c
  | .name, c => NameComponent.load c
  | .active, c => ActiveComponent.load c
  | .hierarchy, c => loadHierarchy c
  | .camera, c => Camera.load c
  | .luaScript, c => LuaScriptComponent.load A c
  | .model, c => Model.load A c
  | .light, c => Light.load c
  | .physics3D, _ => Physics3DComponent.load
  | .environment, c => Environment.load c
  | .sprite, c => Sprite.load c
  | .physics2D, _ => Physics2DComponent.load
  | .defaultCameraController, c => DefaultCameraController.load c
  | .animatedSprite, c => AnimatedSprite.load c
  | .sound, _ => SoundComponent.load

end Lumos.Serialisation
