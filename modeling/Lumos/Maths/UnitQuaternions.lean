import Lumos.Maths.ExactArithmetic
import Lumos.Maths.Matrix3x4

/-!
# Quaternions of unit length

They turn vectors one after the other as their product does, and back as their conjugate does.
-/
namespace Lumos.Maths.Quaternion

/-- `Conjugate` -/
def conjugate {K : Type} [FloatArithmetic K] (q : Quaternion K) : Quaternion K := ⟨q.w, -q.x, -q.y, -q.z⟩

/-- What leaves every vector as it is. -/
def identity {K : Type} [FloatArithmetic K] : Quaternion K := ⟨1, 0, 0, 0⟩

variable {p q : Quaternion ℝ}

/-- The terms of `apply`, without the length. -/
theorem apply_eq (hq : q.IsRotation) (v : Vector3 ℝ) : q.apply v =
    ⟨(q.w ^ 2 + q.x ^ 2 - q.y ^ 2 - q.z ^ 2) * v.x + 2 * (q.x * q.y - q.w * q.z) * v.y + 2 * (q.x * q.z + q.w * q.y) * v.z,
     2 * (q.x * q.y + q.w * q.z) * v.x + (q.w ^ 2 - q.x ^ 2 + q.y ^ 2 - q.z ^ 2) * v.y + 2 * (q.y * q.z - q.w * q.x) * v.z,
     2 * (q.x * q.z - q.w * q.y) * v.x + 2 * (q.y * q.z + q.w * q.x) * v.y +
       (q.w ^ 2 - q.x ^ 2 - q.y ^ 2 + q.z ^ 2) * v.z⟩ := by
  have hunit : q.w ^ 2 + q.x ^ 2 + q.y ^ 2 + q.z ^ 2 = 1 := hq
  ext
  · simp only [apply, Vector3.add_x, Vector3.mul_x, Vector3.crossProduct_x, Vector3.crossProduct_y,
      Vector3.crossProduct_z, two_real]
    linear_combination (-v.x) * hunit
  · simp only [apply, Vector3.add_y, Vector3.mul_y, Vector3.crossProduct_x, Vector3.crossProduct_y,
      Vector3.crossProduct_z, two_real]
    linear_combination (-v.y) * hunit
  · simp only [apply, Vector3.add_z, Vector3.mul_z, Vector3.crossProduct_x, Vector3.crossProduct_y,
      Vector3.crossProduct_z, two_real]
    linear_combination (-v.z) * hunit

theorem isRotation_product (hp : p.IsRotation) (hq : q.IsRotation) : (p.product q).IsRotation := by
  have hlength : (p.product q).w ^ 2 + (p.product q).x ^ 2 + (p.product q).y ^ 2 + (p.product q).z ^ 2 =
      (p.w ^ 2 + p.x ^ 2 + p.y ^ 2 + p.z ^ 2) * (q.w ^ 2 + q.x ^ 2 + q.y ^ 2 + q.z ^ 2) := by
    simp only [product]
    ring
  unfold IsRotation at hp hq ⊢
  rw [hlength, hp, hq, mul_one]

theorem isRotation_conjugate (hq : q.IsRotation) : q.conjugate.IsRotation := by
  unfold IsRotation conjugate
  rw [neg_sq, neg_sq, neg_sq]
  exact hq

/-- A product turns by its second factor first. -/
theorem product_apply (hp : p.IsRotation) (hq : q.IsRotation) (v : Vector3 ℝ) :
    (p.product q).apply v = p.apply (q.apply v) := by
  rw [apply_eq (isRotation_product hp hq), apply_eq hp, apply_eq hq]
  ext <;> simp only [product] <;> ring

theorem identity_apply (v : Vector3 ℝ) : identity.apply v = v := by
  ext <;> simp [identity, apply]

theorem conjugate_product (hq : q.IsRotation) : q.conjugate.product q = identity := by
  have hunit : q.w ^ 2 + q.x ^ 2 + q.y ^ 2 + q.z ^ 2 = 1 := hq
  simp only [product, conjugate, identity, mk.injEq]
  refine ⟨?_, ?_, ?_, ?_⟩
  · linear_combination hunit
  all_goals ring

/-- Turning back. -/
theorem conjugate_apply_apply (hq : q.IsRotation) (v : Vector3 ℝ) : q.conjugate.apply (q.apply v) = v := by
  rw [← product_apply (isRotation_conjugate hq) hq, conjugate_product hq, identity_apply]

theorem conjugate_conjugate (q : Quaternion ℝ) : q.conjugate.conjugate = q := by
  simp [conjugate]

theorem apply_conjugate_apply (hq : q.IsRotation) (v : Vector3 ℝ) : q.apply (q.conjugate.apply v) = v := by
  have hback := conjugate_apply_apply (isRotation_conjugate hq) v
  rwa [conjugate_conjugate] at hback

theorem conjugate_product_product (hp : p.IsRotation) (q : Quaternion ℝ) : p.conjugate.product (p.product q) = q := by
  have hunit : p.w ^ 2 + p.x ^ 2 + p.y ^ 2 + p.z ^ 2 = 1 := hp
  obtain ⟨w, x, y, z⟩ := q
  simp only [product, conjugate, mk.injEq]
  refine ⟨?_, ?_, ?_, ?_⟩
  · linear_combination w * hunit
  · linear_combination x * hunit
  · linear_combination y * hunit
  · linear_combination z * hunit

/-- Turning back leaves a vector as it is where turning does. -/
theorem conjugate_apply_eq_iff (hq : q.IsRotation) (v : Vector3 ℝ) : q.conjugate.apply v = v ↔ q.apply v = v := by
  constructor
  · intro h
    conv_lhs => rw [← h, apply_conjugate_apply hq]
  · intro h
    conv_lhs => rw [← h, conjugate_apply_apply hq]

end Lumos.Maths.Quaternion
