import Mathlib.Algebra.Order.Field.Rat
import Lumos.Maths.Matrix4

/-!
# Vectors and matrices of `float`s

The operations the collision tests are made of. Nothing is asked of the arithmetic, so that
it may round and overflow, and comparisons may fail as they do for a NaN.
-/
namespace Lumos.Maths

class FloatArithmetic (K : Type) extends Zero K, One K, Add K, Sub K, Mul K, Div K, Neg K where
  /-- `2.0f` -/
  two : K
  /-- `0.0001f` -/
  epsilon : K
  /-- `M_EPSILON` -/
  mEpsilon : K
  /-- `FLT_MAX` -/
  fltMax : K
  /-- `<` -/
  lt : K → K → Bool
  /-- `<=` -/
  le : K → K → Bool
  sqrtf : K → K
  fabs : K → K

/-- Rational numbers, with roots that are exact where there are any. -/
instance : FloatArithmetic ℚ where
  toZero := ⟨0⟩
  two := 2
  epsilon := 1 / 10000
  mEpsilon := 1 / 1000000
  fltMax := 340282346638528859811704183484516925440
  lt := fun a b => decide (a < b)
  le := fun a b => decide (a ≤ b)
  sqrtf := fun q => mkRat q.num.toNat.sqrt q.den.sqrt
  fabs := fun q => if q < 0 then -q else q

class FloatLiterals (K : Type) extends FloatArithmetic K where
  /-- The number a literal of the source stands for. -/
  literal : ℚ → K

instance : FloatLiterals ℚ where
  literal := fun q => q

structure Vector2 (K : Type) where
  x : K
  y : K
  deriving DecidableEq

structure Vector4 (K : Type) where
  x : K
  y : K
  z : K
  w : K
  deriving DecidableEq

/-- A vector of the same number, as the other two. -/
def Vector2.fill {K : Type} (x : K) : Vector2 K := ⟨x, x⟩

def Vector3.fill {K : Type} (x : K) : Vector3 K := ⟨x, x, x⟩

def Vector4.fill {K : Type} (x : K) : Vector4 K := ⟨x, x, x, x⟩

open FloatArithmetic

variable {K : Type} [FloatArithmetic K]

/-- `Equals`, with the default tolerance. -/
def equals (lhs rhs : K) : Bool := le rhs (lhs + mEpsilon) && le (lhs - mEpsilon) rhs

namespace Vector3

instance : Add (Vector3 K) := ⟨fun a b => ⟨a.x + b.x, a.y + b.y, a.z + b.z⟩⟩

instance : Sub (Vector3 K) := ⟨fun a b => ⟨a.x - b.x, a.y - b.y, a.z - b.z⟩⟩

instance : Neg (Vector3 K) := ⟨fun a => ⟨-a.x, -a.y, -a.z⟩⟩

instance : HMul (Vector3 K) K (Vector3 K) := ⟨fun a s => ⟨a.x * s, a.y * s, a.z * s⟩⟩

/-- `Vector3()` -/
instance : Zero (Vector3 K) := ⟨⟨0, 0, 0⟩⟩

def dotProduct (a b : Vector3 K) : K := a.x * b.x + a.y * b.y + a.z * b.z

def crossProduct (a b : Vector3 K) : Vector3 K :=
  ⟨a.y * b.z - a.z * b.y, a.z * b.x - a.x * b.z, a.x * b.y - a.y * b.x⟩

def lengthSquared (a : Vector3 K) : K := a.x * a.x + a.y * a.y + a.z * a.z

def normalize (a : Vector3 K) : Vector3 K :=
  if !equals a.lengthSquared 1 && lt 0 a.lengthSquared then a * (1 / sqrtf a.lengthSquared) else a

end Vector3

structure Matrix3 (K : Type) where
  m00 : K
  m01 : K
  m02 : K
  m10 : K
  m11 : K
  m12 : K
  m20 : K
  m21 : K
  m22 : K

namespace Matrix3

/-- `operator*` of a vector. -/
def apply (m : Matrix3 K) (v : Vector3 K) : Vector3 K :=
  ⟨m.m00 * v.x + m.m01 * v.y + m.m02 * v.z,
   m.m10 * v.x + m.m11 * v.y + m.m12 * v.z,
   m.m20 * v.x + m.m21 * v.y + m.m22 * v.z⟩

def transpose (m : Matrix3 K) : Matrix3 K :=
  ⟨m.m00, m.m10, m.m20, m.m01, m.m11, m.m21, m.m02, m.m12, m.m22⟩

/-- `Matrix3()` with its diagonal written over. -/
def diagonal (a b c : K) : Matrix3 K := ⟨a, 0, 0, 0, b, 0, 0, 0, c⟩

end Matrix3

def Quaternion.rotationMatrix (q : Quaternion K) : Matrix3 K :=
  ⟨1 - two * q.y * q.y - two * q.z * q.z, two * q.x * q.y - two * q.w * q.z, two * q.x * q.z + two * q.w * q.y,
   two * q.x * q.y + two * q.w * q.z, 1 - two * q.x * q.x - two * q.z * q.z, two * q.y * q.z - two * q.w * q.x,
   two * q.x * q.z - two * q.w * q.y, two * q.y * q.z + two * q.w * q.x, 1 - two * q.x * q.x - two * q.y * q.y⟩

namespace Matrix4

/-- The rotation with a translation set. -/
def ofRotation (r : Matrix3 K) (position : Vector3 K) : Matrix4 K :=
  ⟨r.m00, r.m01, r.m02, position.x,
   r.m10, r.m11, r.m12, position.y,
   r.m20, r.m21, r.m22, position.z,
   0, 0, 0, 1⟩

/-- `operator*` -/
def product (a b : Matrix4 K) : Matrix4 K :=
  ⟨a.m00 * b.m00 + a.m01 * b.m10 + a.m02 * b.m20 + a.m03 * b.m30,
   a.m00 * b.m01 + a.m01 * b.m11 + a.m02 * b.m21 + a.m03 * b.m31,
   a.m00 * b.m02 + a.m01 * b.m12 + a.m02 * b.m22 + a.m03 * b.m32,
   a.m00 * b.m03 + a.m01 * b.m13 + a.m02 * b.m23 + a.m03 * b.m33,
   a.m10 * b.m00 + a.m11 * b.m10 + a.m12 * b.m20 + a.m13 * b.m30,
   a.m10 * b.m01 + a.m11 * b.m11 + a.m12 * b.m21 + a.m13 * b.m31,
   a.m10 * b.m02 + a.m11 * b.m12 + a.m12 * b.m22 + a.m13 * b.m32,
   a.m10 * b.m03 + a.m11 * b.m13 + a.m12 * b.m23 + a.m13 * b.m33,
   a.m20 * b.m00 + a.m21 * b.m10 + a.m22 * b.m20 + a.m23 * b.m30,
   a.m20 * b.m01 + a.m21 * b.m11 + a.m22 * b.m21 + a.m23 * b.m31,
   a.m20 * b.m02 + a.m21 * b.m12 + a.m22 * b.m22 + a.m23 * b.m32,
   a.m20 * b.m03 + a.m21 * b.m13 + a.m22 * b.m23 + a.m23 * b.m33,
   a.m30 * b.m00 + a.m31 * b.m10 + a.m32 * b.m20 + a.m33 * b.m30,
   a.m30 * b.m01 + a.m31 * b.m11 + a.m32 * b.m21 + a.m33 * b.m31,
   a.m30 * b.m02 + a.m31 * b.m12 + a.m32 * b.m22 + a.m33 * b.m32,
   a.m30 * b.m03 + a.m31 * b.m13 + a.m32 * b.m23 + a.m33 * b.m33⟩

/-- `operator*` of a position. -/
def apply (m : Matrix4 K) (v : Vector3 K) : Vector3 K :=
  let invW := 1 / (m.m30 * v.x + m.m31 * v.y + m.m32 * v.z + m.m33)
  ⟨(m.m00 * v.x + m.m01 * v.y + m.m02 * v.z + m.m03) * invW,
   (m.m10 * v.x + m.m11 * v.y + m.m12 * v.z + m.m13) * invW,
   (m.m20 * v.x + m.m21 * v.y + m.m22 * v.z + m.m23) * invW⟩

def toMatrix3 (m : Matrix4 K) : Matrix3 K := ⟨m.m00, m.m01, m.m02, m.m10, m.m11, m.m12, m.m20, m.m21, m.m22⟩

/-- `Translation()` -/
def position (m : Matrix4 K) : Vector3 K := ⟨m.m03, m.m13, m.m23⟩

/-- `Matrix4::Scale` -/
def scaling (s : Vector3 K) : Matrix4 K :=
  ⟨s.x, 0, 0, 0,
   0, s.y, 0, 0,
   0, 0, s.z, 0,
   0, 0, 0, 1⟩

end Matrix4

end Lumos.Maths
