import Lumos.Maths.ExactArithmetic
import Lumos.Maths.Transform

/-!
# Translation, rotation and scale of a matrix

What `Transform` takes out of a matrix it is given, and puts together again.
-/
namespace Lumos.Maths

open FloatArithmetic FloatLiterals

variable {K : Type}

def Vector3.map {D : Type} (f : D → K) (v : Vector3 D) : Vector3 K := ⟨f v.x, f v.y, f v.z⟩

def Quaternion.map {D : Type} (f : D → K) (q : Quaternion D) : Quaternion K := ⟨f q.w, f q.x, f q.y, f q.z⟩

namespace Matrix4

def map {D : Type} (f : D → K) (m : Matrix4 D) : Matrix4 K :=
  ⟨f m.m00, f m.m01, f m.m02, f m.m03,
   f m.m10, f m.m11, f m.m12, f m.m13,
   f m.m20, f m.m21, f m.m22, f m.m23,
   f m.m30, f m.m31, f m.m32, f m.m33⟩

def transpose (m : Matrix4 K) : Matrix4 K :=
  ⟨m.m00, m.m10, m.m20, m.m30,
   m.m01, m.m11, m.m21, m.m31,
   m.m02, m.m12, m.m22, m.m32,
   m.m03, m.m13, m.m23, m.m33⟩

end Matrix4

section Float

variable [FloatLiterals K]

def Matrix3.scaled (m : Matrix3 K) (scale : Vector3 K) : Matrix3 K :=
  ⟨m.m00 * scale.x, m.m01 * scale.y, m.m02 * scale.z,
   m.m10 * scale.x, m.m11 * scale.y, m.m12 * scale.z,
   m.m20 * scale.x, m.m21 * scale.y, m.m22 * scale.z⟩

def Quaternion.fromRotationMatrix (matrix : Matrix3 K) : Quaternion K :=
  let t := matrix.m00 + matrix.m11 + matrix.m22
  if lt 0 t then
    let invS := literal (1 / 2) / sqrtf (1 + t)
    ⟨literal (1 / 4) / invS, (matrix.m21 - matrix.m12) * invS, (matrix.m02 - matrix.m20) * invS,
      (matrix.m10 - matrix.m01) * invS⟩
  else if lt matrix.m11 matrix.m00 && lt matrix.m22 matrix.m00 then
    let invS := literal (1 / 2) / sqrtf (1 + matrix.m00 - matrix.m11 - matrix.m22)
    ⟨(matrix.m21 - matrix.m12) * invS, literal (1 / 4) / invS, (matrix.m01 + matrix.m10) * invS,
      (matrix.m20 + matrix.m02) * invS⟩
  else if lt matrix.m22 matrix.m11 then
    let invS := literal (1 / 2) / sqrtf (1 + matrix.m11 - matrix.m00 - matrix.m22)
    ⟨(matrix.m02 - matrix.m20) * invS, (matrix.m01 + matrix.m10) * invS, literal (1 / 4) / invS,
      (matrix.m12 + matrix.m21) * invS⟩
  else
    let invS := literal (1 / 2) / sqrtf (1 + matrix.m22 - matrix.m00 - matrix.m11)
    ⟨(matrix.m10 - matrix.m01) * invS, (matrix.m02 + matrix.m20) * invS, (matrix.m12 + matrix.m21) * invS,
      literal (1 / 4) / invS⟩

namespace Matrix4

/-- `Scale()` -/
def scalePart (m : Matrix4 K) : Vector3 K :=
  ⟨sqrtf (m.m00 * m.m00 + m.m10 * m.m10 + m.m20 * m.m20), sqrtf (m.m01 * m.m01 + m.m11 * m.m11 + m.m21 * m.m21),
    sqrtf (m.m02 * m.m02 + m.m12 * m.m12 + m.m22 * m.m22)⟩

def rotationMatrix (m : Matrix4 K) : Matrix3 K :=
  m.toMatrix3.scaled ⟨1 / m.scalePart.x, 1 / m.scalePart.y, 1 / m.scalePart.z⟩

/-- `Rotation()` -/
def rotationPart (m : Matrix4 K) : Quaternion K := Quaternion.fromRotationMatrix m.rotationMatrix

end Matrix4

end Float

namespace Transform

section Setters

variable [CommRing K]

def setLocalScale (t : Transform K) (newScale : Vector3 K) : Transform K :=
  { t with dirty := true, localScale := newScale }

def setLocalOrientation (t : Transform K) (quat : Quaternion K) : Transform K :=
  { t with dirty := true, localOrientation := quat }

end Setters

variable [ExactArithmetic K]

def applyTransform (t : Transform K) : Transform K :=
  { t with
    localPosition := t.localMatrix.position
    localOrientation := t.localMatrix.rotationPart
    localScale := t.localMatrix.scalePart }

def setLocalTransform (t : Transform K) (localMat : Matrix4 K) : Transform K :=
  { t with localMatrix := localMat, hasUpdated := true }.applyTransform

end Transform

namespace Matrix4

variable [ExactArithmetic K]

/-- Taken apart and put together again. -/
def recomposed (m : Matrix4 K) : Matrix4 K := translation m.position * m.rotationPart.rotationMatrix4 * scale m.scalePart

end Matrix4

end Lumos.Maths
