import Mathlib.Data.Finmap
import Lumos.Maths.FloatArithmetic
import Lumos.Scene.Registry

/-!
# The components of a saved scene

The fifteen component types a snapshot lists, with the state that is to outlast the program.
What is rebuilt from that state or from the assets it names is left out: cached matrices,
vertex data, pixels, the compiled script.
-/
namespace Lumos.Serialisation

open Maths FloatArithmetic FloatLiterals
open Lumos.Scene (Hierarchy)

variable {K : Type}

/-! ## Collision shapes -/

inductive CollisionShapeType where
  | cuboid
  | sphere
  | pyramid
  | capsule
  | hull
  deriving DecidableEq

inductive CollisionShape (K : Type) where
  | cuboid (cuboidHalfDimensions : Vector3 K) (localTransform : Matrix4 K)
  | sphere (radius : K) (localTransform : Matrix4 K)
  | pyramid (pyramidHalfDimensions : Vector3 K) (localTransform : Matrix4 K) (normals : Fin 5 → Vector3 K)
  | capsule (radius height : K) (localTransform : Matrix4 K)
  | hull (halfDimensions : Vector3 K) (localTransform : Matrix4 K)

namespace CollisionShape

def type : CollisionShape K → CollisionShapeType
  | cuboid .. => .cuboid
  | sphere .. => .sphere
  | pyramid .. => .pyramid
  | capsule .. => .capsule
  | hull .. => .hull

variable [FloatLiterals K]

/-- The normals `PyramidCollisionShape` computes from its half dimensions. -/
def pyramidNormals (halfDimensions : Vector3 K) : Fin 5 → Vector3 K :=
  let localTransform := Matrix4.scaling halfDimensions
  let points : Fin 5 → Vector3 K := fun
    | 0 => localTransform.apply ⟨-1, -1, -1⟩
    | 1 => localTransform.apply ⟨-1, -1, 1⟩
    | 2 => localTransform.apply ⟨1, -1, 1⟩
    | 3 => localTransform.apply ⟨1, -1, -1⟩
    | 4 => localTransform.apply ⟨0, 1, 0⟩
  let normal (a b : Fin 5) : Vector3 K := ((points a - points b).crossProduct (points 4 - points b)).normalize
  fun
    | 0 => normal 0 3
    | 1 => normal 1 0
    | 2 => normal 2 1
    | 3 => normal 3 2
    | 4 => ⟨0, -1, 0⟩

/-- `BuildInverseInertia` of the cuboid and of the hull. -/
def boxInverseInertia (halfDimensions : Vector3 K) (invMass : K) : Matrix3 K :=
  let dims := halfDimensions + halfDimensions
  let dimsSq : Vector3 K := ⟨dims.x * dims.x, dims.y * dims.y, dims.z * dims.z⟩
  .diagonal (literal 12 * invMass * 1 / (dimsSq.y + dimsSq.z)) (literal 12 * invMass * 1 / (dimsSq.x + dimsSq.z))
    (literal 12 * invMass * 1 / (dimsSq.x + dimsSq.y))

def buildInverseInertia (shape : CollisionShape K) (invMass : K) : Matrix3 K :=
  match shape with
  | cuboid half _ | hull half _ => boxInverseInertia half invMass
  | sphere radius _ =>
    let i := literal 2.5 * invMass / (radius * radius)
    .diagonal i i i
  | pyramid half _ _ =>
    let scaleSq : Vector3 K := ⟨half.x * half.x, half.y * half.y, half.z * half.z⟩
    .diagonal (invMass / (literal 0.2 * scaleSq.x + literal 0.15 * scaleSq.y))
      (invMass / (literal 0.2 * scaleSq.z + literal 0.15 * scaleSq.y))
      (invMass / (literal 0.2 * scaleSq.z + literal 0.2 * scaleSq.x))
  | capsule radius height _ =>
    let lx := two * (radius + height / two)
    let l := two * radius
    let scaledmass := 1 / invMass * literal 0.08333333
    .diagonal (1 / scaledmass * (l * l + l * l)) (1 / scaledmass * (lx * lx + l * l))
      (1 / scaledmass * (lx * lx + l * l))

end CollisionShape

/-! ## The component types -/

structure Transform (K : Type) where
  position : Vector3 K
  rotation : Quaternion K
  scale : Vector3 K
  deriving DecidableEq

structure NameComponent where
  name : String
  deriving DecidableEq

structure ActiveComponent where
  active : Bool
  deriving DecidableEq

structure Camera (K : Type) where
  scale : K
  aspectRatio : K
  fov : K
  near : K
  far : K
  orthographic : Bool
  deriving DecidableEq

structure LuaScriptComponent where
  fileName : String
  deriving DecidableEq

inductive PrimitiveType where
  | plane
  | quad
  | cube
  | pyramid
  | sphere
  | capsule
  | cylinder
  | terrain
  | file
  deriving DecidableEq

structure MaterialProperties (K : Type) where
  albedoColour : Vector4 K
  roughnessColour : Vector4 K
  metallicColour : Vector4 K
  emissiveColour : Vector4 K
  usingAlbedoMap : K
  usingMetallicMap : K
  usingRoughnessMap : K
  usingNormalMap : K
  usingAOMap : K
  usingEmissiveMap : K
  workflow : K
  deriving DecidableEq

/-- A texture is known by the path of its file, which is empty where it comes from none. -/
structure PBRMaterialTextures where
  albedo : Option String
  normal : Option String
  metallic : Option String
  roughness : Option String
  ao : Option String
  emissive : Option String
  deriving DecidableEq

structure Material (K : Type) where
  textures : PBRMaterialTextures
  properties : MaterialProperties K
  deriving DecidableEq

/-- The vertices of a mesh come from its primitive type or file. -/
structure Mesh (K : Type) where
  material : Option (Material K)
  deriving DecidableEq

structure Model (K : Type) where
  primitiveType : PrimitiveType
  meshes : List (Mesh K)
  filePath : String
  deriving DecidableEq

structure Light (K : Type) where
  colour : Vector4 K
  position : Vector4 K
  direction : Vector4 K
  intensity : K
  radius : K
  type : K
  angle : K
  deriving DecidableEq

structure RigidBody3D (K : Type) where
  position : Vector3 K
  linearVelocity : Vector3 K
  force : Vector3 K
  invMass : K
  trigger : Bool
  orientation : Quaternion K
  angularVelocity : Vector3 K
  torque : Vector3 K
  invInertia : Matrix3 K
  collisionShape : Option (CollisionShape K)
  isStatic : Bool
  elasticity : K
  friction : K
  atRest : Bool

structure Physics3DComponent (K : Type) where
  rigidBody : RigidBody3D K

structure Environment (K : Type) where
  filePath : String
  /-- A `uint32_t`, as the two sizes are. -/
  numMips : Nat
  width : Nat
  height : Nat
  fileType : String
  irrFactor : K
  deriving DecidableEq

structure Sprite (K : Type) where
  texture : Option String
  position : Vector2 K
  scale : Vector2 K
  colour : Vector4 K
  deriving DecidableEq

inductive Shape where
  | square
  | circle
  | custom
  deriving DecidableEq

/-- The position and the angle are those of the `b2Body`. -/
structure RigidBody2D (K : Type) where
  position : Vector2 K
  angle : K
  shapeType : Shape
  mass : K
  scale : Vector3 K
  customShapePositions : List (Vector2 K)
  isStatic : Bool
  friction : K
  deriving DecidableEq

structure Physics2DComponent (K : Type) where
  rigidBody : RigidBody2D K
  deriving DecidableEq

inductive ControllerType where
  | fps
  | thirdPerson
  | simple
  | camera2D
  | editorCamera
  | custom
  deriving DecidableEq

structure DefaultCameraController where
  type : ControllerType
  deriving DecidableEq

inductive PlayMode where
  | loop
  | pingPong
  deriving DecidableEq

structure AnimationState (K : Type) where
  mode : PlayMode
  frames : List (Vector2 K)
  frameDuration : K
  deriving DecidableEq

structure AnimatedSprite (K : Type) extends Sprite K where
  animationStates : Finmap fun _ : String => AnimationState K
  state : String

/-- The sound is known by the path of its file. -/
structure SoundNode (K : Type) where
  position : Vector3 K
  radius : K
  pitch : K
  volume : K
  velocity : Vector3 K
  looping : Bool
  paused : Bool
  referenceDistance : K
  global : Bool
  timeLeft : K
  stationary : Bool
  sound : Option String
  deriving DecidableEq

structure SoundComponent (K : Type) where
  soundNode : SoundNode K
  deriving DecidableEq

/-! ## What the constructors without arguments make -/

section Constructors

variable [FloatLiterals K]

def Transform.new : Transform K := ⟨.fill 0, ⟨1, 0, 0, 0⟩, .fill 1⟩

def Camera.new : Camera K := ⟨1, 0, 0, 0, 0, false⟩

/-- The members of a `Model` without an initialiser are zero. -/
def Model.new : Model K := ⟨.plane, [], ""⟩

def Material.new : Material K where
  textures := ⟨none, none, none, none, none, none⟩
  properties := ⟨⟨1, 0, 1, 1⟩, ⟨1, 0, 1, 1⟩, ⟨0, 1, 0, 1⟩, ⟨0, 0, 0, 1⟩, 1, 1, 1, 1, 1, 1, 0⟩

def Light.new : Light K := ⟨.fill 1, ⟨0, 0, 0, 1⟩, ⟨0, 0, 0, 1⟩, 1, 1, 0, 0⟩

/-- `RigidBody3D` with the default properties. -/
def RigidBody3D.new : RigidBody3D K where
  position := .fill 0
  linearVelocity := .fill 0
  force := .fill 0
  invMass := 1 / 1
  trigger := false
  orientation := ⟨1, 0, 0, 0⟩
  angularVelocity := .fill 0
  torque := .fill 0
  invInertia := .diagonal 0 0 0
  collisionShape := none
  isStatic := false
  elasticity := literal 0.9
  friction := literal 0.8
  atRest := false

def Environment.new : Environment K := ⟨"", 0, 0, 0, "", literal 32 / literal 1024⟩

def Sprite.new : Sprite K := ⟨none, .fill 0, .fill 1, .fill 1⟩

/-- `RigidBody2D`, which has no `b2Body` yet, as `Init` with the default parameters leaves it. -/
def RigidBody2D.new : RigidBody2D K := ⟨.fill 0, 0, .square, 1, .fill 1, [], false, literal 0.8⟩

def AnimationState.new : AnimationState K := ⟨.loop, [], 1⟩

def AnimatedSprite.new : AnimatedSprite K := { Sprite.new with animationStates := ∅, state := "" }

def SoundNode.new : SoundNode K :=
  ⟨.fill 0, literal 50, 1, 1, .fill 0, true, false, 0, false, 0, false, none⟩

end Constructors

/-! ## The list of the component types -/

inductive ComponentType where
  | transform
  | name
  | active
  | hierarchy
  | camera
  | luaScript
  | model
  | light
  | physics3D
  | environment
  | sprite
  | physics2D
  | defaultCameraController
  | animatedSprite
  | sound
  deriving DecidableEq

open ComponentType

/-- The type of the components in a pool. -/
abbrev Component (K ε : Type) : ComponentType → Type
  | transform => Transform K
  | name => NameComponent
  | active => ActiveComponent
  | hierarchy => Hierarchy ε
  | camera => Camera K
  | luaScript => LuaScriptComponent
  | model => Model K
  | light => Light K
  | physics3D => Physics3DComponent K
  | environment => Environment K
  | sprite => Sprite K
  | physics2D => Physics2DComponent K
  | defaultCameraController => DefaultCameraController
  | animatedSprite => AnimatedSprite K
  | sound => SoundComponent K

/-- `Type instance{}` -/
def Component.new [FloatLiterals K] (ε : Type) : (type : ComponentType) → Component K ε type
  | transform => Transform.new
  | name => ⟨""⟩
  | active => ⟨true⟩
  | hierarchy => Hierarchy.new
  | camera => Camera.new
  | luaScript => ⟨""⟩
  | model => Model.new
  | light => Light.new
  | physics3D => ⟨RigidBody3D.new⟩
  | environment => Environment.new
  | sprite => Sprite.new
  | physics2D => ⟨RigidBody2D.new⟩
  | defaultCameraController => ⟨.custom⟩
  | animatedSprite => AnimatedSprite.new
  | sound => ⟨SoundNode.new⟩

/-- `ALL_COMPONENTSV1` -/
def allComponentsV1 : List ComponentType :=
  [transform, name, active, hierarchy, camera, luaScript, model, light, physics3D, environment, sprite,
    physics2D, defaultCameraController]

/-- `ALL_COMPONENTSV2` -/
def allComponentsV2 : List ComponentType := allComponentsV1 ++ [animatedSprite]

/-- `ALL_COMPONENTSV3` -/
def allComponentsV3 : List ComponentType := allComponentsV2 ++ [sound]

theorem mem_allComponentsV3 (type : ComponentType) : type ∈ allComponentsV3 := by
  cases type <;> decide

theorem nodup_allComponentsV3 : allComponentsV3.Nodup := by decide

end Lumos.Serialisation
