import Lumos.Maths.Decomposition

/-!
# Products and 3x4 matrices

As they are compiled without `LUMOS_SSE`.
-/
namespace Lumos.Maths

open FloatArithmetic

variable {K : Type} [FloatLiterals K]

namespace Quaternion

/-- `operator*` -/
def product (q rhs : Quaternion K) : Quaternion K :=
  ⟨q.w * rhs.w - q.x * rhs.x - q.y * rhs.y - q.z * rhs.z,
   q.w * rhs.x + q.x * rhs.w + q.y * rhs.z - q.z * rhs.y,
   q.w * rhs.y + q.y * rhs.w + q.z * rhs.x - q.x * rhs.z,
   q.w * rhs.z + q.z * rhs.w + q.x * rhs.y - q.y * rhs.x⟩

/-- `operator*` of a vector. -/
def apply (q : Quaternion K) (rhs : Vector3 K) : Vector3 K :=
  let qVec : Vector3 K := ⟨q.x, q.y, q.z⟩
  let cross1 := qVec.crossProduct rhs
  let cross2 := qVec.crossProduct cross1
  rhs + (cross1 * q.w + cross2) * (two : K)

end Quaternion

/-- `operator*` of a `Vector4`. -/
def Matrix4.applyVector4 (m : Matrix4 K) (rhs : Vector4 K) : Vector4 K :=
  ⟨m.m00 * rhs.x + m.m01 * rhs.y + m.m02 * rhs.z + m.m03 * rhs.w,
   m.m10 * rhs.x + m.m11 * rhs.y + m.m12 * rhs.z + m.m13 * rhs.w,
   m.m20 * rhs.x + m.m21 * rhs.y + m.m22 * rhs.z + m.m23 * rhs.w,
   m.m30 * rhs.x + m.m31 * rhs.y + m.m32 * rhs.z + m.m33 * rhs.w⟩

instance : HMul (Matrix3 K) K (Matrix3 K) :=
  ⟨fun m rhs =>
    ⟨m.m00 * rhs, m.m01 * rhs, m.m02 * rhs, m.m10 * rhs, m.m11 * rhs, m.m12 * rhs,
     m.m20 * rhs, m.m21 * rhs, m.m22 * rhs⟩⟩

@[ext]
structure Matrix3x4 (K : Type) where
  m00 : K
  m01 : K
  m02 : K
  m03 : K
  m10 : K
  m11 : K
  m12 : K
  m13 : K
  m20 : K
  m21 : K
  m22 : K
  m23 : K
  deriving DecidableEq

namespace Matrix3x4

/-- `operator*` of a position. -/
def apply (m : Matrix3x4 K) (rhs : Vector3 K) : Vector3 K :=
  ⟨m.m00 * rhs.x + m.m01 * rhs.y + m.m02 * rhs.z + m.m03,
   m.m10 * rhs.x + m.m11 * rhs.y + m.m12 * rhs.z + m.m13,
   m.m20 * rhs.x + m.m21 * rhs.y + m.m22 * rhs.z + m.m23⟩

/-- `operator*` of a `Vector4`. -/
def applyVector4 (m : Matrix3x4 K) (rhs : Vector4 K) : Vector3 K :=
  ⟨m.m00 * rhs.x + m.m01 * rhs.y + m.m02 * rhs.z + m.m03 * rhs.w,
   m.m10 * rhs.x + m.m11 * rhs.y + m.m12 * rhs.z + m.m13 * rhs.w,
   m.m20 * rhs.x + m.m21 * rhs.y + m.m22 * rhs.z + m.m23 * rhs.w⟩

/-- `operator*` -/
def product (m rhs : Matrix3x4 K) : Matrix3x4 K :=
  ⟨m.m00 * rhs.m00 + m.m01 * rhs.m10 + m.m02 * rhs.m20,
   m.m00 * rhs.m01 + m.m01 * rhs.m11 + m.m02 * rhs.m21,
   m.m00 * rhs.m02 + m.m01 * rhs.m12 + m.m02 * rhs.m22,
   m.m00 * rhs.m03 + m.m01 * rhs.m13 + m.m02 * rhs.m23 + m.m03,
   m.m10 * rhs.m00 + m.m11 * rhs.m10 + m.m12 * rhs.m20,
   m.m10 * rhs.m01 + m.m11 * rhs.m11 + m.m12 * rhs.m21,
   m.m10 * rhs.m02 + m.m11 * rhs.m12 + m.m12 * rhs.m22,
   m.m10 * rhs.m03 + m.m11 * rhs.m13 + m.m12 * rhs.m23 + m.m13,
   m.m20 * rhs.m00 + m.m21 * rhs.m10 + m.m22 * rhs.m20,
   m.m20 * rhs.m01 + m.m21 * rhs.m11 + m.m22 * rhs.m21,
   m.m20 * rhs.m02 + m.m21 * rhs.m12 + m.m22 * rhs.m22,
   m.m20 * rhs.m03 + m.m21 * rhs.m13 + m.m22 * rhs.m23 + m.m23⟩

/-- `operator*` of a `Matrix4`. -/
def productMatrix4 (m : Matrix3x4 K) (rhs : Matrix4 K) : Matrix4 K :=
  ⟨m.m00 * rhs.m00 + m.m01 * rhs.m10 + m.m02 * rhs.m20 + m.m03 * rhs.m30,
   m.m00 * rhs.m01 + m.m01 * rhs.m11 + m.m02 * rhs.m21 + m.m03 * rhs.m31,
   m.m00 * rhs.m02 + m.m01 * rhs.m12 + m.m02 * rhs.m22 + m.m03 * rhs.m32,
   m.m00 * rhs.m03 + m.m01 * rhs.m13 + m.m02 * rhs.m23 + m.m03 * rhs.m33,
   m.m10 * rhs.m00 + m.m11 * rhs.m10 + m.m12 * rhs.m20 + m.m13 * rhs.m30,
   m.m10 * rhs.m01 + m.m11 * rhs.m11 + m.m12 * rhs.m21 + m.m13 * rhs.m31,
   m.m10 * rhs.m02 + m.m11 * rhs.m12 + m.m12 * rhs.m22 + m.m13 * rhs.m32,
   m.m10 * rhs.m03 + m.m11 * rhs.m13 + m.m12 * rhs.m23 + m.m13 * rhs.m33,
   m.m20 * rhs.m00 + m.m21 * rhs.m10 + m.m22 * rhs.m20 + m.m23 * rhs.m30,
   m.m20 * rhs.m01 + m.m21 * rhs.m11 + m.m22 * rhs.m21 + m.m23 * rhs.m31,
   m.m20 * rhs.m02 + m.m21 * rhs.m12 + m.m22 * rhs.m22 + m.m23 * rhs.m32,
   m.m20 * rhs.m03 + m.m21 * rhs.m13 + m.m22 * rhs.m23 + m.m23 * rhs.m33,
   rhs.m30, rhs.m31, rhs.m32, rhs.m33⟩

/-- What the members are before a constructor sets them. -/
def zero : Matrix3x4 K := ⟨0, 0, 0, 0, 0, 0, 0, 0, 0, 0, 0, 0⟩

def setTranslation (m : Matrix3x4 K) (translation : Vector3 K) : Matrix3x4 K :=
  { m with m03 := translation.x, m13 := translation.y, m23 := translation.z }

def setRotation (m : Matrix3x4 K) (rotation : Matrix3 K) : Matrix3x4 K :=
  { m with
    m00 := rotation.m00, m01 := rotation.m01, m02 := rotation.m02
    m10 := rotation.m10, m11 := rotation.m11, m12 := rotation.m12
    m20 := rotation.m20, m21 := rotation.m21, m22 := rotation.m22 }

/-- `Matrix3x4(translation, rotation, scale)` of a uniform scale. -/
def ofUniformScale (translation : Vector3 K) (rotation : Quaternion K) (scale : K) : Matrix3x4 K :=
  (zero.setRotation (rotation.rotationMatrix * scale)).setTranslation translation

/-- `Matrix3x4(translation, rotation, scale)` -/
def ofScale (translation : Vector3 K) (rotation : Quaternion K) (scale : Vector3 K) : Matrix3x4 K :=
  (zero.setRotation (rotation.rotationMatrix.scaled scale)).setTranslation translation

end Matrix3x4

end Lumos.Maths
