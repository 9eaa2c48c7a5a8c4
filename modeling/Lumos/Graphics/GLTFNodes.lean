import Mathlib.Tactic.LinearCombination
import Mathlib.Tactic.FieldSimp
import Lumos.Maths.Decomposition

/-!
# The nodes of a glTF scene

`LoadNode` places the mesh of a node by its own transform and its parent's: what a node
passes on to its children is its local matrix. The matrix of a node is a vector of doubles
whose memory is read as floats.
-/
namespace Lumos.Graphics.GLTFLoader

open Maths

/-- How numbers of type `double` are converted to `float`, and the two floats their memory is
read as. -/
structure Doubles (D K : Type) where
  value : D → K
  low : D → K
  high : D → K

/-- The fields of `tinygltf::Node` that place it. The entries of `matrix` are in the order of
the vector; the transform is its transpose. -/
structure Node (D : Type) where
  scale : Option (Vector3 D)
  rotation : Option (Quaternion D)
  translation : Option (Vector3 D)
  matrix : Option (Matrix4 D)
  mesh : Int

/-- A node with the nodes its children's indices lead to. -/
inductive NodeTree (D : Type) where
  | node (info : Node D) (children : List (NodeTree D))

variable {D K : Type} [ExactArithmetic K] (doubles : Doubles D K)

/-- `Matrix4(reinterpret_cast<float*>(matrix.data()))`: the first eight doubles. -/
def Doubles.asFloats (m : Matrix4 D) : Matrix4 K :=
  ⟨doubles.low m.m00, doubles.high m.m00, doubles.low m.m01, doubles.high m.m01,
   doubles.low m.m02, doubles.high m.m02, doubles.low m.m03, doubles.high m.m03,
   doubles.low m.m10, doubles.high m.m10, doubles.low m.m11, doubles.high m.m11,
   doubles.low m.m12, doubles.high m.m12, doubles.low m.m13, doubles.high m.m13⟩

/-- The first half of `LoadNode`, up to `UpdateMatrices`. -/
def nodeTransform (node : Node D) : Transform K :=
  let transform : Transform K := .new
  let transform := match node.scale with
    | some scale => transform.setLocalScale (scale.map doubles.value)
    | none => transform
  let transform := match node.rotation with
    | some rotation => transform.setLocalOrientation (rotation.map doubles.value)
    | none => transform
  let transform := match node.translation with
    | some translation => transform.setLocalPosition (translation.map doubles.value)
    | none => transform
  let transform := match node.matrix with
    | some matrix => transform.setLocalTransform (doubles.asFloats matrix).transpose
    | none => transform
  transform.updateMatrices

mutual

/-- The meshes that are loaded, and the matrices their positions are multiplied with. -/
def loadNode (parentTransform : Matrix4 K) : NodeTree D → List (Int × Matrix4 K)
  | .node node children =>
    let transform := (nodeTransform doubles node).setWorldMatrix parentTransform
    (if 0 ≤ node.mesh then [(node.mesh, transform.getWorldMatrix.1)] else []) ++
      loadNodes transform.getLocalMatrix.1 children

/-- The loop over the children. -/
def loadNodes (parentTransform : Matrix4 K) : List (NodeTree D) → List (Int × Matrix4 K)
  | [] => []
  | child :: children => loadNode parentTransform child ++ loadNodes parentTransform children

end

/-- The loop over the nodes of the scene. -/
def loadGLTF (nodes : List (NodeTree D)) : List (Int × Matrix4 K) := loadNodes doubles 1 nodes

/-! ## Where the nodes are -/

mutual

/-- The nodes with a mesh, each with the nodes above it, the nearest first. -/
def meshPaths (above : List (Node D)) : NodeTree D → List (Node D × List (Node D))
  | .node node children =>
    (if 0 ≤ node.mesh then [(node, above)] else []) ++ meshPathsList (node :: above) children

def meshPathsList (above : List (Node D)) : List (NodeTree D) → List (Node D × List (Node D))
  | [] => []
  | child :: children => meshPaths above child ++ meshPathsList above children

end

/-- What scale, rotation and translation make, with their defaults. -/
def Node.composed (node : Node D) : Matrix4 K :=
  Matrix4.translation ((node.translation.map (Vector3.map doubles.value)).getD ⟨0, 0, 0⟩) *
    ((node.rotation.map (Quaternion.map doubles.value)).getD ⟨1, 0, 0, 0⟩).rotationMatrix4 *
    Matrix4.scale ((node.scale.map (Vector3.map doubles.value)).getD ⟨1, 1, 1⟩)

/-- The local transform of a node. -/
def Node.localTransform (node : Node D) : Matrix4 K :=
  match node.matrix with
  | some matrix => (matrix.map doubles.value).transpose
  | none => node.composed doubles

/-- The local transform as it is read from memory. -/
def Node.readTransform (node : Node D) : Matrix4 K :=
  match node.matrix with
  | some matrix => (doubles.asFloats matrix).transpose.recomposed
  | none => node.composed doubles

/-- The product of the local transforms from the root down. -/
def product : List (Node D) → Matrix4 K
  | [] => 1
  | node :: above => product above * node.localTransform doubles

/-- The two lowest transforms, as they are read, are the product of the whole path: the nodes
above the parent leave in place what parent and node make together. -/
def Undisturbed : Node D × List (Node D) → Prop
  | (node, []) => node.readTransform doubles = node.localTransform doubles
  | (node, parent :: above) => parent.readTransform doubles * node.readTransform doubles =
      product doubles above * (parent.localTransform doubles * node.localTransform doubles)

/-! ## What `LoadNode` makes of them -/

theorem localMatrix_nodeTransform (node : Node D) :
    (nodeTransform doubles node).localMatrix = node.readTransform doubles := by
  obtain ⟨scale, rotation, translation, matrix, mesh⟩ := node
  cases matrix with
  | some matrix => cases scale <;> cases rotation <;> cases translation <;> rfl
  | none => cases scale <;> cases rotation <;> cases translation <;> rfl

theorem dirty_nodeTransform (node : Node D) : (nodeTransform doubles node).dirty = false := rfl

theorem getLocalMatrix_placed (node : Node D) (parentTransform : Matrix4 K) :
    ((nodeTransform doubles node).setWorldMatrix parentTransform).getLocalMatrix.1 = node.readTransform doubles := by
  rw [Transform.getLocalMatrix_setWorldMatrix, Transform.getLocalMatrix,
    Transform.refresh_of_clean _ (dirty_nodeTransform doubles node), localMatrix_nodeTransform]

theorem getWorldMatrix_placed (node : Node D) (parentTransform : Matrix4 K) :
    ((nodeTransform doubles node).setWorldMatrix parentTransform).getWorldMatrix.1 =
      parentTransform * node.readTransform doubles := by
  rw [Transform.getWorldMatrix, Transform.worldMatrix_refresh, Transform.worldMatrix_setWorldMatrix,
    ← getLocalMatrix_placed doubles node parentTransform, Transform.getLocalMatrix_setWorldMatrix]

/-- What a node is given by the nodes above it. -/
def passedOn : List (Node D) → Matrix4 K
  | [] => 1
  | parent :: _ => parent.readTransform doubles

/-- A mesh, and the matrix it is placed by. -/
def placed (path : Node D × List (Node D)) : Int × Matrix4 K :=
  (path.1.mesh, passedOn doubles path.2 * path.1.readTransform doubles)

mutual

theorem loadNode_eq (above : List (Node D)) :
    ∀ tree : NodeTree D, loadNode doubles (passedOn doubles above) tree =
      (meshPaths above tree).map (placed doubles)
  | .node node children => by
    have hrest := loadNodes_eq (node :: above) children
    rw [loadNode, meshPaths, List.map_append, getLocalMatrix_placed, getWorldMatrix_placed, ← hrest]
    congr 1
    split <;> rfl

theorem loadNodes_eq (above : List (Node D)) :
    ∀ trees : List (NodeTree D), loadNodes doubles (passedOn doubles above) trees =
      (meshPathsList above trees).map (placed doubles)
  | [] => rfl
  | tree :: trees => by
    rw [loadNodes, meshPathsList, List.map_append, loadNode_eq above tree, loadNodes_eq above trees]

end

theorem placed_eq_iff (path : Node D × List (Node D)) :
    placed doubles path = (path.1.mesh, product doubles path.2 * path.1.localTransform doubles) ↔
      Undisturbed doubles path := by
  obtain ⟨node, above⟩ := path
  rw [placed, Prod.mk.injEq, and_iff_right rfl]
  cases above with
  | nil => rw [passedOn, product, one_mul, one_mul, Undisturbed]
  | cons parent above => rw [passedOn, product, mul_assoc, Undisturbed]

/-- Given by a translation, a rotation and a scale in no direction zero. -/
structure Regular (node : Node D) : Prop where
  matrix : node.matrix = none
  rotation : ∀ q ∈ node.rotation, doubles.value q.w ^ 2 + doubles.value q.x ^ 2 + doubles.value q.y ^ 2 +
    doubles.value q.z ^ 2 = 1
  scale : ∀ s ∈ node.scale, doubles.value s.x ≠ 0 ∧ doubles.value s.y ≠ 0 ∧ doubles.value s.z ≠ 0

theorem rotationMatrix4_mul_conjugate {q : Maths.Quaternion K} (hq : q.w ^ 2 + q.x ^ 2 + q.y ^ 2 + q.z ^ 2 = 1) :
    q.rotationMatrix4 * (⟨q.w, -q.x, -q.y, -q.z⟩ : Maths.Quaternion K).rotationMatrix4 = 1 := by
  rw [Matrix4.mul_def, Matrix4.one_def]
  simp only [Quaternion.rotationMatrix4, Matrix4.mul, Matrix4.identity, Matrix4.mk.injEq]
  refine ⟨?_, ?_, ?_, ?_, ?_, ?_, ?_, ?_, ?_, ?_, ?_, ?_, ?_, ?_, ?_, ?_⟩
  · linear_combination 4 * (q.y ^ 2 + q.z ^ 2) * hq
  · linear_combination -4 * q.x * q.y * hq
  · linear_combination -4 * q.x * q.z * hq
  · ring
  · linear_combination -4 * q.x * q.y * hq
  · linear_combination 4 * (q.x ^ 2 + q.z ^ 2) * hq
  · linear_combination -4 * q.y * q.z * hq
  · ring
  · linear_combination -4 * q.x * q.z * hq
  · linear_combination -4 * q.y * q.z * hq
  · linear_combination 4 * (q.x ^ 2 + q.y ^ 2) * hq
  · ring
  · ring
  · ring
  · ring
  · ring

theorem translation_mul_neg (t : Vector3 K) :
    Matrix4.translation t * Matrix4.translation ⟨-t.x, -t.y, -t.z⟩ = 1 := by
  rw [Matrix4.mul_def, Matrix4.one_def]
  simp [Matrix4.translation, Matrix4.mul, Matrix4.identity]

theorem scale_mul_inv {s : Vector3 K} (hs : s.x ≠ 0 ∧ s.y ≠ 0 ∧ s.z ≠ 0) :
    Matrix4.scale s * Matrix4.scale ⟨s.x⁻¹, s.y⁻¹, s.z⁻¹⟩ = 1 := by
  rw [Matrix4.mul_def, Matrix4.one_def]
  simp [Matrix4.scale, Matrix4.mul, Matrix4.identity, hs]

variable {doubles}

theorem Regular.exists_inverse {node : Node D} (h : Regular doubles node) :
    ∃ inverse, node.localTransform doubles * inverse = 1 := by
  have hcompose : ∀ {a b c a' b' c' : Matrix4 K}, a * a' = 1 → b * b' = 1 → c * c' = 1 →
      a * b * c * (c' * b' * a') = 1 := by
    intro a b c a' b' c' ha hb hc
    calc a * b * c * (c' * b' * a') = a * (b * (c * c') * b') * a' := by simp only [mul_assoc]
      _ = 1 := by rw [hc, mul_one, hb, mul_one, ha]
  rw [Node.localTransform, h.matrix]
  refine ⟨_, hcompose (translation_mul_neg _) (rotationMatrix4_mul_conjugate ?_) (scale_mul_inv ?_)⟩
  · cases hrotation : node.rotation with
    | none => simp
    | some q => exact h.rotation q hrotation
  · cases hscale : node.scale with
    | none => simp
    | some s => exact h.scale s hscale

/-- Of such nodes those above the parent have to come out as nothing. -/
theorem undisturbed_iff {node parent : Node D} {above : List (Node D)} (hnode : Regular doubles node)
    (hparent : Regular doubles parent) :
    Undisturbed doubles (node, parent :: above) ↔ product doubles above = (1 : Matrix4 K) := by
  obtain ⟨nodeInverse, hnodeInverse⟩ := hnode.exists_inverse
  obtain ⟨parentInverse, hparentInverse⟩ := hparent.exists_inverse
  have hread : ∀ {n : Node D}, Regular doubles n → n.readTransform doubles = n.localTransform doubles := by
    intro n hn
    rw [Node.readTransform, Node.localTransform, hn.matrix]
  rw [Undisturbed, hread hnode, hread hparent]
  constructor
  · intro h
    have hcancel := congrArg (· * (nodeInverse * parentInverse)) h
    have hinverse : parent.localTransform doubles * node.localTransform doubles * (nodeInverse * parentInverse) = 1 := by
      calc parent.localTransform doubles * node.localTransform doubles * (nodeInverse * parentInverse)
          = parent.localTransform doubles * (node.localTransform doubles * nodeInverse) * parentInverse := by
            simp only [mul_assoc]
        _ = 1 := by rw [hnodeInverse, mul_one, hparentInverse]
    simp only [mul_assoc (product doubles above), hinverse, mul_one] at hcancel
    exact hcancel.symm
  · intro h
    rw [h, one_mul]

/-! ## Three nodes in a row -/

/-- Translated by one along x, with this mesh. -/
def step (mesh : Int) : Node ℚ := ⟨none, none, some ⟨1, 0, 0⟩, none, mesh⟩

/-- Only the lowest node has a mesh. -/
def chain : List (NodeTree ℚ) := [.node (step (-1)) [.node (step (-1)) [.node (step 0) []]]]

def rationals : Doubles ℚ ℚ := ⟨id, fun _ => 0, fun _ => 0⟩

end Lumos.Graphics.GLTFLoader
