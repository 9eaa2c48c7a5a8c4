import Mathlib
import Lumos.Maths.ExactArithmetic
import Lumos.Maths.Matrix3x4
import Lumos.Maths.Projection

/-!
# Inverses of matrices

Each of the three matrices has an inverse of its own, written out entry by entry.
-/
namespace Lumos.Maths

open FloatArithmetic

/-! ## The code -/

section Inverses

variable {K : Type} [FloatArithmetic K]

def Matrix3.inverse (m : Matrix3 K) : Matrix3 K :=
  let det := m.m00 * m.m11 * m.m22 + m.m10 * m.m21 * m.m02 + m.m20 * m.m01 * m.m12 -
    m.m20 * m.m11 * m.m02 - m.m10 * m.m01 * m.m22 - m.m00 * m.m21 * m.m12
  let invDet := 1 / det
  ⟨(m.m11 * m.m22 - m.m21 * m.m12) * invDet, -(m.m01 * m.m22 - m.m21 * m.m02) * invDet,
   (m.m01 * m.m12 - m.m11 * m.m02) * invDet, -(m.m10 * m.m22 - m.m20 * m.m12) * invDet,
   (m.m00 * m.m22 - m.m20 * m.m02) * invDet, -(m.m00 * m.m12 - m.m10 * m.m02) * invDet,
   (m.m10 * m.m21 - m.m20 * m.m11) * invDet, -(m.m00 * m.m21 - m.m20 * m.m01) * invDet,
   (m.m00 * m.m11 - m.m10 * m.m01) * invDet⟩

/-- `Inverse()`, with the translation turned back by the rows before it. -/
def Matrix3x4.inverse (m : Matrix3x4 K) : Matrix3x4 K :=
  let det := m.m00 * m.m11 * m.m22 + m.m10 * m.m21 * m.m02 + m.m20 * m.m01 * m.m12 -
    m.m20 * m.m11 * m.m02 - m.m10 * m.m01 * m.m22 - m.m00 * m.m21 * m.m12
  let invDet := 1 / det
  let m00 := (m.m11 * m.m22 - m.m21 * m.m12) * invDet
  let m01 := -(m.m01 * m.m22 - m.m21 * m.m02) * invDet
  let m02 := (m.m01 * m.m12 - m.m11 * m.m02) * invDet
  let m10 := -(m.m10 * m.m22 - m.m20 * m.m12) * invDet
  let m11 := (m.m00 * m.m22 - m.m20 * m.m02) * invDet
  let m12 := -(m.m00 * m.m12 - m.m10 * m.m02) * invDet
  let m20 := (m.m10 * m.m21 - m.m20 * m.m11) * invDet
  let m21 := -(m.m00 * m.m21 - m.m20 * m.m01) * invDet
  let m22 := (m.m00 * m.m11 - m.m10 * m.m01) * invDet
  ⟨m00, m01, m02, -(m.m03 * m00 + m.m13 * m01 + m.m23 * m02),
   m10, m11, m12, -(m.m03 * m10 + m.m13 * m11 + m.m23 * m12),
   m20, m21, m22, -(m.m03 * m20 + m.m13 * m21 + m.m23 * m22)⟩

/-- `operator*` -/
def Matrix3.product (m rhs : Matrix3 K) : Matrix3 K :=
  ⟨m.m00 * rhs.m00 + m.m01 * rhs.m10 + m.m02 * rhs.m20, m.m00 * rhs.m01 + m.m01 * rhs.m11 + m.m02 * rhs.m21,
   m.m00 * rhs.m02 + m.m01 * rhs.m12 + m.m02 * rhs.m22, m.m10 * rhs.m00 + m.m11 * rhs.m10 + m.m12 * rhs.m20,
   m.m10 * rhs.m01 + m.m11 * rhs.m11 + m.m12 * rhs.m21, m.m10 * rhs.m02 + m.m11 * rhs.m12 + m.m12 * rhs.m22,
   m.m20 * rhs.m00 + m.m21 * rhs.m10 + m.m22 * rhs.m20, m.m20 * rhs.m01 + m.m21 * rhs.m11 + m.m22 * rhs.m21,
   m.m20 * rhs.m02 + m.m21 * rhs.m12 + m.m22 * rhs.m22⟩

/-- `Matrix3()` -/
def Matrix3.initial : Matrix3 K := ⟨1, 0, 0, 0, 1, 0, 0, 0, 1⟩

/-- `Matrix3x4()` -/
def Matrix3x4.initial : Matrix3x4 K := ⟨1, 0, 0, 0, 0, 1, 0, 0, 0, 0, 1, 0⟩

def Matrix3x4.toMatrix3 (m : Matrix3x4 K) : Matrix3 K :=
  ⟨m.m00, m.m01, m.m02, m.m10, m.m11, m.m12, m.m20, m.m21, m.m22⟩

def Matrix3x4.toMatrix4 (m : Matrix3x4 K) : Matrix4 K :=
  ⟨m.m00, m.m01, m.m02, m.m03, m.m10, m.m11, m.m12, m.m13, m.m20, m.m21, m.m22, m.m23, 0, 0, 0, 1⟩

end Inverses

/-! ## Determinants -/

section Exact

variable {K : Type} [ExactArithmetic K]

def Matrix3.toMatrix (m : Matrix3 K) : Matrix (Fin 3) (Fin 3) K :=
  !![m.m00, m.m01, m.m02; m.m10, m.m11, m.m12; m.m20, m.m21, m.m22]

def Matrix4.toMatrix (m : Matrix4 K) : Matrix (Fin 4) (Fin 4) K :=
  !![m.m00, m.m01, m.m02, m.m03; m.m10, m.m11, m.m12, m.m13; m.m20, m.m21, m.m22, m.m23; m.m30, m.m31, m.m32, m.m33]

theorem Matrix3.det_toMatrix (m : Matrix3 K) : m.toMatrix.det =
    m.m00 * m.m11 * m.m22 + m.m10 * m.m21 * m.m02 + m.m20 * m.m01 * m.m12 -
      m.m20 * m.m11 * m.m02 - m.m10 * m.m01 * m.m22 - m.m00 * m.m21 * m.m12 := by
  rw [toMatrix, Matrix.det_fin_three]
  simp
  ring

theorem Matrix4.det_toMatrix (m : Matrix4 K) : m.toMatrix.det =
    ((m.m22 * m.m33 - m.m23 * m.m32) * m.m11 - (m.m21 * m.m33 - m.m23 * m.m31) * m.m12 +
      (m.m21 * m.m32 - m.m22 * m.m31) * m.m13) * m.m00 +
    -((m.m22 * m.m33 - m.m23 * m.m32) * m.m10 - (m.m20 * m.m33 - m.m23 * m.m30) * m.m12 +
      (m.m20 * m.m32 - m.m22 * m.m30) * m.m13) * m.m01 +
    ((m.m21 * m.m33 - m.m23 * m.m31) * m.m10 - (m.m20 * m.m33 - m.m23 * m.m30) * m.m11 +
      (m.m20 * m.m31 - m.m21 * m.m30) * m.m13) * m.m02 +
    -((m.m21 * m.m32 - m.m22 * m.m31) * m.m10 - (m.m20 * m.m32 - m.m22 * m.m30) * m.m11 +
      (m.m20 * m.m31 - m.m21 * m.m30) * m.m12) * m.m03 := by
  rw [toMatrix, Matrix.det_succ_row_zero]
  simp [Fin.sum_univ_succ, Matrix.det_fin_three, Fin.succAbove]
  ring

/-! ## Products -/

omit [ExactArithmetic K] in
theorem Matrix3.toMatrix_injective : Function.Injective (toMatrix : Matrix3 K → Matrix (Fin 3) (Fin 3) K) := by
  intro m rhs h
  have hentry : ∀ i j, m.toMatrix i j = rhs.toMatrix i j := fun i j => by rw [h]
  cases m
  cases rhs
  rw [Matrix3.mk.injEq]
  exact ⟨hentry 0 0, hentry 0 1, hentry 0 2, hentry 1 0, hentry 1 1, hentry 1 2, hentry 2 0, hentry 2 1, hentry 2 2⟩

theorem Matrix3.toMatrix_product (m rhs : Matrix3 K) : (m.product rhs).toMatrix = m.toMatrix * rhs.toMatrix := by
  rw [toMatrix, toMatrix, toMatrix, Matrix.mul_fin_three]
  rfl

theorem Matrix3.toMatrix_initial : (initial : Matrix3 K).toMatrix = 1 := by
  rw [toMatrix, Matrix.one_fin_three]
  rfl

omit [ExactArithmetic K] in
theorem Matrix4.toMatrix_injective : Function.Injective (toMatrix : Matrix4 K → Matrix (Fin 4) (Fin 4) K) := by
  intro m rhs h
  have hentry : ∀ i j, m.toMatrix i j = rhs.toMatrix i j := fun i j => by rw [h]
  cases m
  cases rhs
  rw [Matrix4.mk.injEq]
  exact ⟨hentry 0 0, hentry 0 1, hentry 0 2, hentry 0 3, hentry 1 0, hentry 1 1, hentry 1 2, hentry 1 3,
    hentry 2 0, hentry 2 1, hentry 2 2, hentry 2 3, hentry 3 0, hentry 3 1, hentry 3 2, hentry 3 3⟩

theorem Matrix4.toMatrix_product (m rhs : Matrix4 K) : (m.product rhs).toMatrix = m.toMatrix * rhs.toMatrix := by
  ext i j
  fin_cases i <;> fin_cases j <;> simp [toMatrix, product, Matrix.mul_apply, Fin.sum_univ_four]

theorem Matrix4.toMatrix_initial : (initial : Matrix4 K).toMatrix = 1 := by
  ext i j
  fin_cases i <;> fin_cases j <;> rfl

/-! ## Two-sided inverses -/

theorem Matrix3.product_inverse (m : Matrix3 K) (h : m.toMatrix.det ≠ 0) : m.product m.inverse = initial := by
  rw [det_toMatrix] at h
  have hinv := mul_one_div_cancel h
  simp only [product, inverse, initial, Matrix3.mk.injEq]
  generalize 1 / _ = invDet at hinv ⊢
  refine ⟨?_, ?_, ?_, ?_, ?_, ?_, ?_, ?_, ?_⟩
  · linear_combination hinv
  · ring
  · ring
  · ring
  · linear_combination hinv
  · ring
  · ring
  · ring
  · linear_combination hinv

theorem Matrix3.inverse_product (m : Matrix3 K) (h : m.toMatrix.det ≠ 0) : m.inverse.product m = initial := by
  apply toMatrix_injective
  rw [toMatrix_product, toMatrix_initial, mul_eq_one_comm, ← toMatrix_product, product_inverse m h,
    toMatrix_initial]

theorem Matrix4.product_inverse (m : Matrix4 K) (h : m.toMatrix.det ≠ 0) : m.product m.inverse = initial := by
  rw [det_toMatrix] at h
  have hinv := mul_one_div_cancel h
  simp only [product, inverse, initial, Matrix4.mk.injEq]
  generalize 1 / _ = invDet at hinv ⊢
  refine ⟨?_, ?_, ?_, ?_, ?_, ?_, ?_, ?_, ?_, ?_, ?_, ?_, ?_, ?_, ?_, ?_⟩
  · linear_combination hinv
  · ring
  · ring
  · ring
  · ring
  · linear_combination hinv
  · ring
  · ring
  · ring
  · ring
  · linear_combination hinv
  · ring
  · ring
  · ring
  · ring
  · linear_combination hinv

theorem Matrix4.inverse_product (m : Matrix4 K) (h : m.toMatrix.det ≠ 0) : m.inverse.product m = initial := by
  apply toMatrix_injective
  rw [toMatrix_product, toMatrix_initial, mul_eq_one_comm, ← toMatrix_product, product_inverse m h,
    toMatrix_initial]

/-! ## Affine matrices -/

section Affine

variable (m rhs : Matrix3x4 K)

theorem Matrix3x4.toMatrix3_inverse : m.inverse.toMatrix3 = m.toMatrix3.inverse := rfl

theorem Matrix3x4.toMatrix4_product : (m.product rhs).toMatrix4 = m.toMatrix4.product rhs.toMatrix4 := by
  simp only [product, toMatrix4, Matrix4.product, Matrix4.mk.injEq]
  and_intros <;> ring

theorem Matrix3x4.toMatrix4_injective : Function.Injective (toMatrix4 : Matrix3x4 K → Matrix4 K) := by
  intro m rhs h
  simp only [toMatrix4, Matrix4.mk.injEq, and_true] at h
  ext <;> tauto

/-- The last row of an affine matrix adds nothing to its determinant. -/
theorem Matrix3x4.det_toMatrix4 : m.toMatrix4.toMatrix.det = m.toMatrix3.toMatrix.det := by
  rw [Matrix4.det_toMatrix, Matrix3.det_toMatrix, toMatrix4, toMatrix3]
  ring

theorem Matrix3x4.inverse_toMatrix4 (h : m.toMatrix3.toMatrix.det ≠ 0) :
    m.toMatrix4.inverse = m.inverse.toMatrix4 := by
  have hdet := m.det_toMatrix4
  rw [Matrix4.det_toMatrix, Matrix3.det_toMatrix] at hdet
  rw [Matrix3.det_toMatrix] at h
  have hinv := mul_one_div_cancel h
  simp only [toMatrix4, toMatrix3] at hdet hinv
  simp only [Matrix4.inverse, inverse, toMatrix4, Matrix4.mk.injEq]
  rw [hdet]
  generalize 1 / _ = invDet at hinv ⊢
  refine ⟨?_, ?_, ?_, ?_, ?_, ?_, ?_, ?_, ?_, ?_, ?_, ?_, ?_, ?_, ?_, ?_⟩
  · ring
  · ring
  · ring
  · ring
  · ring
  · ring
  · ring
  · ring
  · ring
  · ring
  · ring
  · ring
  · ring
  · ring
  · ring
  · linear_combination hinv

theorem Matrix3x4.product_inverse (h : m.toMatrix3.toMatrix.det ≠ 0) : m.product m.inverse = initial := by
  apply toMatrix4_injective
  rw [toMatrix4_product, ← inverse_toMatrix4 m h, Matrix4.product_inverse _ (by rwa [det_toMatrix4])]
  rfl

theorem Matrix3x4.inverse_product (h : m.toMatrix3.toMatrix.det ≠ 0) : m.inverse.product m = initial := by
  apply toMatrix4_injective
  rw [toMatrix4_product, ← inverse_toMatrix4 m h, Matrix4.inverse_product _ (by rwa [det_toMatrix4])]
  rfl

end Affine

/-- `Inverse` is a two-sided inverse on all three, and they agree. -/
theorem inverses_agree :
    (∀ m : Matrix3 K, m.toMatrix.det ≠ 0 → m.product m.inverse = .initial ∧ m.inverse.product m = .initial) ∧
    (∀ m : Matrix3x4 K, m.toMatrix3.toMatrix.det ≠ 0 →
      m.product m.inverse = .initial ∧ m.inverse.product m = .initial) ∧
    (∀ m : Matrix4 K, m.toMatrix.det ≠ 0 → m.product m.inverse = .initial ∧ m.inverse.product m = .initial) ∧
    ∀ m : Matrix3x4 K, m.toMatrix3.toMatrix.det ≠ 0 →
      m.toMatrix4.inverse = m.inverse.toMatrix4 ∧ m.inverse.toMatrix3 = m.toMatrix3.inverse :=
  ⟨fun m h => ⟨m.product_inverse h, m.inverse_product h⟩, fun m h => ⟨m.product_inverse h, m.inverse_product h⟩,
    fun m h => ⟨m.product_inverse h, m.inverse_product h⟩, fun m h => ⟨m.inverse_toMatrix4 h, m.toMatrix3_inverse⟩⟩

end Exact

/-- A shear with a translation. -/
def shear : Matrix3x4 ℚ := ⟨1, 2, 0, 3, 0, 1, 0, 4, 0, 0, 2, 5⟩

theorem det_shear : shear.toMatrix3.toMatrix.det ≠ 0 := by
  rw [Matrix3.det_toMatrix, Matrix3x4.toMatrix3, shear]
  norm_num

theorem inverses_agree_shear :
    shear.toMatrix3.product shear.toMatrix3.inverse = .initial ∧ shear.product shear.inverse = .initial ∧
      shear.toMatrix4.product shear.toMatrix4.inverse = .initial ∧ shear.toMatrix4.inverse = shear.inverse.toMatrix4 :=
  ⟨(inverses_agree.1 shear.toMatrix3 det_shear).1, (inverses_agree.2.1 shear det_shear).1,
    (inverses_agree.2.2.1 shear.toMatrix4 (by rw [Matrix3x4.det_toMatrix4]; exact det_shear)).1,
    (inverses_agree.2.2.2 shear det_shear).1⟩

end Lumos.Maths
