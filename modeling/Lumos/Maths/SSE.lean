import Mathlib.Tactic.Ring
import Lumos.Library.Lanes
import Lumos.Maths.Matrix3x4

/-!
# The products as they are compiled with `LUMOS_SSE`

Quaternions, vectors and the rows of matrices are loaded into registers of four lanes. In exact
arithmetic the registers come to what the plain versions compute.
-/
namespace Lumos.Maths.SSE

open Lumos.Lanes FloatArithmetic

section Operators

variable {K : Type}

/-- `_mm_loadu_ps(&w)` -/
def loadQuaternion (q : Quaternion K) : M128 K := ⟨q.w, q.x, q.y, q.z⟩

/-- `Quaternion(wxyz)` -/
def toQuaternion (wxyz : M128 K) : Quaternion K := ⟨wxyz.e0, wxyz.e1, wxyz.e2, wxyz.e3⟩

def loadVector4 (v : Vector4 K) : M128 K := ⟨v.x, v.y, v.z, v.w⟩

def storeVector4 (vec : M128 K) : Vector4 K := ⟨vec.e0, vec.e1, vec.e2, vec.e3⟩

/-- `Vector3` of the lowest lane of the register and of what two shuffles of it have there. -/
def toVector3 (vec : M128 K) : Vector3 K := ⟨vec.e0, (shuffle vec vec 1 1 1 1).e0, (movehl vec vec).e0⟩

/-- The rows, as they are loaded and stored. -/
def row0 (m : Matrix4 K) : M128 K := ⟨m.m00, m.m01, m.m02, m.m03⟩
def row1 (m : Matrix4 K) : M128 K := ⟨m.m10, m.m11, m.m12, m.m13⟩
def row2 (m : Matrix4 K) : M128 K := ⟨m.m20, m.m21, m.m22, m.m23⟩
def row3 (m : Matrix4 K) : M128 K := ⟨m.m30, m.m31, m.m32, m.m33⟩

def storeMatrix4 (r0 r1 r2 r3 : M128 K) : Matrix4 K :=
  ⟨r0.e0, r0.e1, r0.e2, r0.e3,
   r1.e0, r1.e1, r1.e2, r1.e3,
   r2.e0, r2.e1, r2.e2, r2.e3,
   r3.e0, r3.e1, r3.e2, r3.e3⟩

def affineRow0 (m : Matrix3x4 K) : M128 K := ⟨m.m00, m.m01, m.m02, m.m03⟩
def affineRow1 (m : Matrix3x4 K) : M128 K := ⟨m.m10, m.m11, m.m12, m.m13⟩
def affineRow2 (m : Matrix3x4 K) : M128 K := ⟨m.m20, m.m21, m.m22, m.m23⟩

def storeMatrix3x4 (r0 r1 r2 : M128 K) : Matrix3x4 K :=
  ⟨r0.e0, r0.e1, r0.e2, r0.e3,
   r1.e0, r1.e1, r1.e2, r1.e3,
   r2.e0, r2.e1, r2.e2, r2.e3⟩

variable [FloatArithmetic K]

/-- `Quaternion::operator*` -/
def quaternionProduct (q rhs : Quaternion K) : Quaternion K :=
  let q1 := loadQuaternion q
  let q2 := loadQuaternion rhs
  let q2 := shuffle q2 q2 0 3 2 1
  let signy := setPs true true false false
  let signx := shuffle signy signy 2 0 2 0
  let signz := shuffle signy signy 3 0 0 3
  let out := shuffle q1 q1 1 1 1 1 * shuffle q2 q2 0 1 2 3
  let out := xorSign signy (shuffle q1 q1 2 2 2 2) * shuffle q2 q2 1 0 3 2 + xorSign signx out
  let out := xorSign signz (shuffle q1 q1 3 3 3 3) * shuffle q2 q2 2 3 0 1 + out
  let out := shuffle q1 q1 0 0 0 0 * q2 + out
  toQuaternion (shuffle out out 2 1 0 3)

/-- `Quaternion::operator*` of a vector. -/
def quaternionApply (q : Quaternion K) (rhs : Vector3 K) : Vector3 K :=
  let q := loadQuaternion q
  let q := shuffle q q 0 3 2 1
  let v := setPs 0 rhs.z rhs.y rhs.x
  let W := shuffle q q 3 3 3 3
  let a_yzx := shuffle q q 3 0 2 1
  let x := q * shuffle v v 3 0 2 1
  let qxv := x - a_yzx * v
  let Wv := W * v
  let s := qxv + shuffle Wv Wv 3 1 0 2
  let qs := q * s
  let y := shuffle qs qs 3 1 0 2
  let s := a_yzx * s - y
  let s := s + s
  let s := s + v
  toVector3 s

/-- `Matrix4::operator*` of a position. -/
def matrix4Apply (m : Matrix4 K) (rhs : Vector3 K) : Vector3 K :=
  let vec := setPs 1 rhs.z rhs.y rhs.x
  let vec := rowSums (row0 m * vec) (row1 m * vec) (row2 m * vec) (row3 m * vec)
  let vec := vec / shuffle vec vec 3 3 3 3
  toVector3 vec

/-- `Matrix4::operator*` of a `Vector4`. -/
def matrix4ApplyVector4 (m : Matrix4 K) (rhs : Vector4 K) : Vector4 K :=
  let vec := loadVector4 rhs
  storeVector4 (rowSums (row0 m * vec) (row1 m * vec) (row2 m * vec) (row3 m * vec))

/-- A row of the left matrix times the rows of a `Matrix4`. -/
def timesRows (l : M128 K) (rhs : Matrix4 K) : M128 K :=
  rowCombination l (row0 rhs) (row1 rhs) (row2 rhs) (shuffle l l 3 3 3 3 * row3 rhs)

/-- `Matrix4::operator*` -/
def matrix4Product (m rhs : Matrix4 K) : Matrix4 K :=
  storeMatrix4 (timesRows (row0 m) rhs) (timesRows (row1 m) rhs) (timesRows (row2 m) rhs) (timesRows (row3 m) rhs)

/-- The fourth sum is over nothing. -/
def affineSums (m : Matrix3x4 K) (vec : M128 K) : M128 K :=
  rowSums (affineRow0 m * vec) (affineRow1 m * vec) (affineRow2 m * vec) 0

/-- `Matrix3x4::operator*` of a position. -/
def matrix3x4Apply (m : Matrix3x4 K) (rhs : Vector3 K) : Vector3 K :=
  toVector3 (affineSums m (setPs 1 rhs.z rhs.y rhs.x))

/-- `Matrix3x4::operator*` of a `Vector4`. -/
def matrix3x4ApplyVector4 (m : Matrix3x4 K) (rhs : Vector4 K) : Vector3 K :=
  toVector3 (affineSums m (loadVector4 rhs))

/-- A row of the left matrix times the rows of a `Matrix3x4`; the row that it lacks is not shuffled in. -/
def timesAffineRows (l : M128 K) (rhs : Matrix3x4 K) : M128 K :=
  rowCombination l (affineRow0 rhs) (affineRow1 rhs) (affineRow2 rhs) (l * setPs 1 0 0 0)

/-- `Matrix3x4::operator*` -/
def matrix3x4Product (m rhs : Matrix3x4 K) : Matrix3x4 K :=
  storeMatrix3x4 (timesAffineRows (affineRow0 m) rhs) (timesAffineRows (affineRow1 m) rhs)
    (timesAffineRows (affineRow2 m) rhs)

/-- `Matrix3x4::operator*` of a `Matrix4`, whose last row is kept. -/
def matrix3x4ProductMatrix4 (m : Matrix3x4 K) (rhs : Matrix4 K) : Matrix4 K :=
  storeMatrix4 (timesRows (affineRow0 m) rhs) (timesRows (affineRow1 m) rhs) (timesRows (affineRow2 m) rhs) (row3 rhs)

def setFromTRS (t q s : M128 K) : Matrix3x4 K :=
  let q := shuffle q q 0 3 2 1
  let one := setPs 0 0 0 1
  let sseX1 := setPs true true false true
  let q2 := q + q
  let t2 := addSs (xorSign sseX1 (shuffle q q 3 3 3 2 * shuffle q2 q2 0 1 2 2)) one
  let sseX0 := shuffle sseX1 sseX1 0 3 2 1
  let t0 := shuffle q q 1 0 0 1 * shuffle q2 q2 2 2 1 1
  let t1 := xorSign sseX0 t0
  let r0 := t2 - t1
  let xx2 := mulSs q q2
  let r1 := xorSign sseX0 t2 - moveSs t1 xx2
  let r1 := shuffle r1 r1 2 3 0 1
  let r2 := shuffle (movehl r0 r1) (subSs (subSs one xx2) t0) 2 0 3 1
  let tmp0 := unpacklo r0 r1
  let tmp2 := unpacklo r2 t
  let tmp1 := unpackhi r0 r1
  let tmp3 := unpackhi r2 t
  storeMatrix3x4 (movelh tmp0 tmp2 * s) (movehl tmp2 tmp0 * s) (movelh tmp1 tmp3 * s)

/-- `Matrix3x4(translation, rotation, scale)` of a uniform scale. -/
def ofUniformScale (translation : Vector3 K) (rotation : Quaternion K) (scale : K) : Matrix3x4 K :=
  setFromTRS (setPs 1 translation.z translation.y translation.x) (loadQuaternion rotation) (setPs 1 scale scale scale)

/-- `Matrix3x4(translation, rotation, scale)` -/
def ofScale (translation : Vector3 K) (rotation : Quaternion K) (scale : Vector3 K) : Matrix3x4 K :=
  setFromTRS (setPs 1 translation.z translation.y translation.x) (loadQuaternion rotation)
    (setPs 1 scale.z scale.y scale.x)

end Operators

variable {K : Type}

theorem quaternionProduct_eq [ExactArithmetic K] (q rhs : Quaternion K) : quaternionProduct q rhs = q.product rhs := by
  simp only [quaternionProduct, Quaternion.product, toQuaternion, loadQuaternion, shuffle, xorSign, setPs, mul_def,
    add_def, lane_zero, lane_one, lane_two, lane_three, Bool.false_eq_true, if_true, if_false, Quaternion.mk.injEq]
  and_intros <;> ring

/-- Doubling is adding to itself. -/
theorem quaternionApply_eq [ExactLiterals K] (q : Quaternion K) (rhs : Vector3 K) :
    quaternionApply q rhs = q.apply rhs := by
  have hplain : ∀ (a b c : Vector3 K) (s : K), a + (b * q.w + c) * s =
      ⟨a.x + (b.x * q.w + c.x) * s, a.y + (b.y * q.w + c.y) * s, a.z + (b.z * q.w + c.z) * s⟩ :=
    fun _ _ _ _ => rfl
  simp only [quaternionApply, Quaternion.apply, hplain, two_eq_one_add_one, toVector3, loadQuaternion, shuffle,
    movehl, setPs, mul_def, add_def, sub_def, lane_zero, lane_one, lane_two, lane_three, Vector3.crossProduct,
    Vector3.mk.injEq]
  and_intros <;> ring

theorem matrix4Apply_eq [ExactArithmetic K] (m : Matrix4 K) (rhs : Vector3 K) : matrix4Apply m rhs = m.apply rhs := by
  simp only [matrix4Apply, Matrix4.apply, rowSums_eq, M128.sum, toVector3, shuffle, movehl, div_def, mul_def, row0, row1,
    row2, row3, setPs, lane_one, lane_three, mul_one, mul_one_div]

theorem matrix4ApplyVector4_eq [ExactArithmetic K] (m : Matrix4 K) (rhs : Vector4 K) :
    matrix4ApplyVector4 m rhs = m.applyVector4 rhs := by
  simp only [matrix4ApplyVector4, Matrix4.applyVector4, rowSums_eq, M128.sum, storeVector4, loadVector4, mul_def, row0,
    row1, row2, row3]

theorem timesRows_eq [ExactArithmetic K] (l : M128 K) (rhs : Matrix4 K) :
    timesRows l rhs =
      ⟨l.e0 * rhs.m00 + l.e1 * rhs.m10 + l.e2 * rhs.m20 + l.e3 * rhs.m30,
       l.e0 * rhs.m01 + l.e1 * rhs.m11 + l.e2 * rhs.m21 + l.e3 * rhs.m31,
       l.e0 * rhs.m02 + l.e1 * rhs.m12 + l.e2 * rhs.m22 + l.e3 * rhs.m32,
       l.e0 * rhs.m03 + l.e1 * rhs.m13 + l.e2 * rhs.m23 + l.e3 * rhs.m33⟩ := by
  simp only [timesRows, rowCombination_eq, shuffle, mul_def, lane_three, row0, row1, row2, row3]

theorem matrix4Product_eq [ExactArithmetic K] (m rhs : Matrix4 K) : matrix4Product m rhs = m.product rhs := by
  simp only [matrix4Product, Matrix4.product, timesRows_eq, storeMatrix4, row0, row1, row2, row3]

theorem affineSums_eq [ExactArithmetic K] (m : Matrix3x4 K) (vec : M128 K) :
    toVector3 (affineSums m vec) =
      ⟨m.m00 * vec.e0 + m.m01 * vec.e1 + m.m02 * vec.e2 + m.m03 * vec.e3,
       m.m10 * vec.e0 + m.m11 * vec.e1 + m.m12 * vec.e2 + m.m13 * vec.e3,
       m.m20 * vec.e0 + m.m21 * vec.e1 + m.m22 * vec.e2 + m.m23 * vec.e3⟩ := by
  simp only [affineSums, rowSums_eq, M128.sum, toVector3, shuffle, movehl, mul_def, affineRow0, affineRow1, affineRow2,
    lane_one]

theorem matrix3x4Apply_eq [ExactArithmetic K] (m : Matrix3x4 K) (rhs : Vector3 K) :
    matrix3x4Apply m rhs = m.apply rhs := by
  simp only [matrix3x4Apply, Matrix3x4.apply, affineSums_eq, setPs, mul_one]

theorem matrix3x4ApplyVector4_eq [ExactArithmetic K] (m : Matrix3x4 K) (rhs : Vector4 K) :
    matrix3x4ApplyVector4 m rhs = m.applyVector4 rhs := by
  simp only [matrix3x4ApplyVector4, Matrix3x4.applyVector4, affineSums_eq, loadVector4]

/-- The lacking row is the last one of the identity. -/
theorem timesAffineRows_eq [ExactArithmetic K] (l : M128 K) (rhs : Matrix3x4 K) :
    timesAffineRows l rhs =
      ⟨l.e0 * rhs.m00 + l.e1 * rhs.m10 + l.e2 * rhs.m20,
       l.e0 * rhs.m01 + l.e1 * rhs.m11 + l.e2 * rhs.m21,
       l.e0 * rhs.m02 + l.e1 * rhs.m12 + l.e2 * rhs.m22,
       l.e0 * rhs.m03 + l.e1 * rhs.m13 + l.e2 * rhs.m23 + l.e3⟩ := by
  simp only [timesAffineRows, rowCombination_eq, setPs, mul_def, affineRow0, affineRow1, affineRow2, mul_zero, mul_one,
    add_zero]

theorem matrix3x4Product_eq [ExactArithmetic K] (m rhs : Matrix3x4 K) : matrix3x4Product m rhs = m.product rhs := by
  simp only [matrix3x4Product, Matrix3x4.product, timesAffineRows_eq, storeMatrix3x4, affineRow0, affineRow1, affineRow2]

theorem matrix3x4ProductMatrix4_eq [ExactArithmetic K] (m : Matrix3x4 K) (rhs : Matrix4 K) :
    matrix3x4ProductMatrix4 m rhs = m.productMatrix4 rhs := by
  simp only [matrix3x4ProductMatrix4, Matrix3x4.productMatrix4, timesRows_eq, storeMatrix4, affineRow0, affineRow1,
    affineRow2, row3]

/-- Each entry of the rotation, before it is scaled. -/
theorem setFromTRS_eq [ExactLiterals K] (t : Vector3 K) (q : Quaternion K) (s : Vector3 K) :
    setFromTRS (setPs 1 t.z t.y t.x) (loadQuaternion q) (setPs 1 s.z s.y s.x) =
      (Matrix3x4.zero.setRotation (q.rotationMatrix.scaled s)).setTranslation t := by
  simp only [setFromTRS, loadQuaternion, storeMatrix3x4, shuffle, setPs, addSs, subSs, mulSs, moveSs, xorSign, movelh,
    movehl, unpacklo, unpackhi, mul_def, add_def, sub_def, lane_zero, lane_one, lane_two, lane_three,
    Matrix3x4.setTranslation, Matrix3x4.setRotation, Matrix3.scaled, Quaternion.rotationMatrix, two_eq_one_add_one,
    Bool.false_eq_true, if_true, if_false, Matrix3x4.mk.injEq]
  and_intros <;> ring

theorem ofScale_eq [ExactLiterals K] (translation : Vector3 K) (rotation : Quaternion K) (scale : Vector3 K) :
    ofScale translation rotation scale = Matrix3x4.ofScale translation rotation scale :=
  setFromTRS_eq translation rotation scale

/-- A uniform scale is three times the same one. -/
theorem ofUniformScale_eq [ExactLiterals K] (translation : Vector3 K) (rotation : Quaternion K) (scale : K) :
    ofUniformScale translation rotation scale = Matrix3x4.ofUniformScale translation rotation scale :=
  setFromTRS_eq translation rotation ⟨scale, scale, scale⟩

/-- Every product and constructor has the same components in both builds. -/
theorem same_components (K : Type) [ExactLiterals K] :
    (∀ q rhs : Quaternion K, quaternionProduct q rhs = q.product rhs) ∧
    (∀ (q : Quaternion K) (rhs : Vector3 K), quaternionApply q rhs = q.apply rhs) ∧
    (∀ (m : Matrix4 K) (rhs : Vector3 K), matrix4Apply m rhs = m.apply rhs) ∧
    (∀ (m : Matrix4 K) (rhs : Vector4 K), matrix4ApplyVector4 m rhs = m.applyVector4 rhs) ∧
    (∀ m rhs : Matrix4 K, matrix4Product m rhs = m.product rhs) ∧
    (∀ (m : Matrix3x4 K) (rhs : Vector3 K), matrix3x4Apply m rhs = m.apply rhs) ∧
    (∀ (m : Matrix3x4 K) (rhs : Vector4 K), matrix3x4ApplyVector4 m rhs = m.applyVector4 rhs) ∧
    (∀ m rhs : Matrix3x4 K, matrix3x4Product m rhs = m.product rhs) ∧
    (∀ (m : Matrix3x4 K) (rhs : Matrix4 K), matrix3x4ProductMatrix4 m rhs = m.productMatrix4 rhs) ∧
    (∀ (translation : Vector3 K) (rotation : Quaternion K) (scale : Vector3 K),
      ofScale translation rotation scale = Matrix3x4.ofScale translation rotation scale) ∧
    (∀ (translation : Vector3 K) (rotation : Quaternion K) (scale : K),
      ofUniformScale translation rotation scale = Matrix3x4.ofUniformScale translation rotation scale) :=
  ⟨quaternionProduct_eq, quaternionApply_eq, matrix4Apply_eq, matrix4ApplyVector4_eq, matrix4Product_eq,
    matrix3x4Apply_eq, matrix3x4ApplyVector4_eq, matrix3x4Product_eq, matrix3x4ProductMatrix4_eq, ofScale_eq,
    ofUniformScale_eq⟩

end Lumos.Maths.SSE
