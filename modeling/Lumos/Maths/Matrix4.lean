import Mathlib.Data.Fin.Basic
import Mathlib.Algebra.Group.Defs
import Mathlib.Algebra.Ring.Defs
import Mathlib.Tactic.Ring

/-!
# `Vector3`
-/
namespace Lumos.Maths

structure Vector3 (K : Type) where
  x : K
  y : K
  z : K
  deriving DecidableEq

namespace Vector3

variable {K : Type}

/-- `operator[]` -/
def get (v : Vector3 K) : Fin 3 → K
  | 0 => v.x
  | 1 => v.y
  | 2 => v.z

/-- What holds along the three axes. -/
theorem forall_axis {P : Fin 3 → Prop} : (∀ axis, P axis) ↔ P 0 ∧ P 1 ∧ P 2 := by
  constructor
  · intro h
    exact ⟨h 0, h 1, h 2⟩
  · intro h axis
    match axis with
    | 0 => exact h.1
    | 1 => exact h.2.1
    | 2 => exact h.2.2

end Vector3

end Lumos.Maths

/-!
# Quaternions and 4x4 matrices

Row by row and entry by entry, in exact arithmetic over any commutative ring.
-/
namespace Lumos.Maths

structure Quaternion (K : Type) where
  w : K
  x : K
  y : K
  z : K
  deriving DecidableEq

@[ext]
structure Matrix4 (K : Type) where
  m00 : K
  m01 : K
  m02 : K
  m03 : K
  m10 : K
  m11 : K
  m12 : K
  m13 : K
  m20 : K
  m21 : K
  m22 : K
  m23 : K
  m30 : K
  m31 : K
  m32 : K
  m33 : K
  deriving DecidableEq

namespace Matrix4

variable {K : Type} [CommRing K]

/-- `Matrix4()` -/
def identity : Matrix4 K :=
  ⟨1, 0, 0, 0,
   0, 1, 0, 0,
   0, 0, 1, 0,
   0, 0, 0, 1⟩

def mul (a b : Matrix4 K) : Matrix4 K :=
  ⟨a.m00 * b.m00 + a.m01 * b.m10 + a.m02 * b.m20 + a.m03 * b.m30,
   a.m00 * b.m01 + a.m01 * b.m11 + a.m02 * b.m21 + a.m03 * b.m31,
   a.m00 * b.m02 + a.m01 * b.m12 + a.m02 * b.m22 + a.m03 * b.m32,
   a.m00 * b.m03 + a.m01 * b.m13 + a.m02 * b.m23 + a.m03 * b.m33,
   a.m10 * b.m00 + a.m11 * b.m10 + a.m12 * b.m20 + a.m13 * b.m30,
   a.m10 * b.m01 + a.m11 * b.m11 + a.m12 * b.m21 + a.m13 * b.m31,
   a.m10 * b.m02 + a.m11 * b.m12 + a.m12 * b.m22 + a.m13 * b.m32,
   a.m10 * b.m03 + a.m11 * b.m13 + a.m12 * b.m23 + a.m13 * b.m33,
   a.m20 * b.m00 + a.m21 * b.m10 + a.m22 * b.m20 + a.m23 * b.m30,
   a.m20 * b.m01 + a.m21 * b.m11 + a.m22 * b.m21 + a.m23 * b.m31,
   a.m20 * b.m02 + a.m21 * b.m12 + a.m22 * b.m22 + a.m23 * b.m32,
   a.m20 * b.m03 + a.m21 * b.m13 + a.m22 * b.m23 + a.m23 * b.m33,
   a.m30 * b.m00 + a.m31 * b.m10 + a.m32 * b.m20 + a.m33 * b.m30,
   a.m30 * b.m01 + a.m31 * b.m11 + a.m32 * b.m21 + a.m33 * b.m31,
   a.m30 * b.m02 + a.m31 * b.m12 + a.m32 * b.m22 + a.m33 * b.m32,
   a.m30 * b.m03 + a.m31 * b.m13 + a.m32 * b.m23 + a.m33 * b.m33⟩

instance : One (Matrix4 K) := ⟨identity⟩

instance : Mul (Matrix4 K) := ⟨mul⟩

theorem one_def : (1 : Matrix4 K) = identity := rfl

theorem mul_def (a b : Matrix4 K) : a * b = mul a b := rfl

instance : Monoid (Matrix4 K) where
  one_mul a := by simp [mul_def, one_def, mul, identity]
  mul_one a := by simp [mul_def, one_def, mul, identity]
  mul_assoc a b c := by
    simp only [mul_def, mul, mk.injEq]
    and_intros <;> ring

/-- The identity with its last column replaced. -/
def translation (t : Vector3 K) : Matrix4 K :=
  ⟨1, 0, 0, t.x,
   0, 1, 0, t.y,
   0, 0, 1, t.z,
   0, 0, 0, 1⟩

instance [Nontrivial K] : Nontrivial (Matrix4 K) where
  exists_pair_ne := by
    refine ⟨1, translation ⟨1, 0, 0⟩, ?_⟩
    intro h
    exact zero_ne_one (congrArg m03 h)

/-- The identity with its diagonal replaced. -/
def scale (s : Vector3 K) : Matrix4 K :=
  ⟨s.x, 0, 0, 0,
   0, s.y, 0, 0,
   0, 0, s.z, 0,
   0, 0, 0, 1⟩

end Matrix4

/-- `Matrix4(RotationMatrix())` -/
def Quaternion.rotationMatrix4 {K : Type} [CommRing K] (q : Quaternion K) : Matrix4 K :=
  ⟨1 - 2 * q.y * q.y - 2 * q.z * q.z, 2 * q.x * q.y - 2 * q.w * q.z, 2 * q.x * q.z + 2 * q.w * q.y, 0,
   2 * q.x * q.y + 2 * q.w * q.z, 1 - 2 * q.x * q.x - 2 * q.z * q.z, 2 * q.y * q.z - 2 * q.w * q.x, 0,
   2 * q.x * q.z - 2 * q.w * q.y, 2 * q.y * q.z + 2 * q.w * q.x, 1 - 2 * q.x * q.x - 2 * q.y * q.y, 0,
   0, 0, 0, 1⟩

end Lumos.Maths
