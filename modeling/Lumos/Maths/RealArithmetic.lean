import Mathlib
import Lumos.Maths.FloatArithmetic

/-!
# Real arithmetic

Where nothing is rounded the operations are those of the real numbers, and a `Vector3` is a
point of space.
-/
namespace Lumos.Maths

open FloatArithmetic
open scoped RealInnerProductSpace

open Classical in
/-- Real numbers, with the constants of the source. -/
noncomputable instance : FloatArithmetic ℝ where
  toZero := inferInstance
  toOne := inferInstance
  toAdd := inferInstance
  toSub := inferInstance
  toMul := inferInstance
  toDiv := inferInstance
  toNeg := inferInstance
  two := ((2 : ℕ) : ℝ)
  epsilon := 1 / ((10000 : ℕ) : ℝ)
  mEpsilon := 1 / ((1000000 : ℕ) : ℝ)
  fltMax := ((340282346638528859811704183484516925440 : ℕ) : ℝ)
  lt := fun a b => decide (a < b)
  le := fun a b => decide (a ≤ b)
  sqrtf := Real.sqrt
  fabs := fun a => |a|

section Comparisons

variable (a b : ℝ)

@[simp] theorem lt_real : lt a b = true ↔ a < b := decide_eq_true_iff

@[simp] theorem le_real : le a b = true ↔ a ≤ b := decide_eq_true_iff

@[simp] theorem fabs_real : fabs a = |a| := rfl

theorem epsilon_real : (epsilon : ℝ) = 1 / 10000 := rfl

theorem mEpsilon_real : (mEpsilon : ℝ) = 1 / 1000000 := rfl

theorem fltMax_real : (fltMax : ℝ) = 340282346638528859811704183484516925440 := rfl

theorem equals_real : equals a b = true ↔ |a - b| ≤ 1 / 1000000 := by
  have hboth : equals a b = true ↔ b ≤ a + 1 / 1000000 ∧ a - 1 / 1000000 ≤ b := by
    rw [equals, Bool.and_eq_true]
    exact and_congr decide_eq_true_iff decide_eq_true_iff
  rw [hboth, abs_le]
  constructor
  · rintro ⟨hleft, hright⟩
    exact ⟨by linarith, by linarith⟩
  · rintro ⟨hleft, hright⟩
    exact ⟨by linarith, by linarith⟩

end Comparisons

/-- The space bodies are in. -/
abbrev Space := EuclideanSpace ℝ (Fin 3)

attribute [ext] Vector3

namespace Vector3

section Operations

variable (a b : Vector3 ℝ) (s : ℝ)

@[simp] theorem add_x : (a + b).x = a.x + b.x := rfl
@[simp] theorem add_y : (a + b).y = a.y + b.y := rfl
@[simp] theorem add_z : (a + b).z = a.z + b.z := rfl
@[simp] theorem sub_x : (a - b).x = a.x - b.x := rfl
@[simp] theorem sub_y : (a - b).y = a.y - b.y := rfl
@[simp] theorem sub_z : (a - b).z = a.z - b.z := rfl
@[simp] theorem neg_x : (-a).x = -a.x := rfl
@[simp] theorem neg_y : (-a).y = -a.y := rfl
@[simp] theorem neg_z : (-a).z = -a.z := rfl
@[simp] theorem mul_x : (a * s).x = a.x * s := rfl
@[simp] theorem mul_y : (a * s).y = a.y * s := rfl
@[simp] theorem mul_z : (a * s).z = a.z * s := rfl
@[simp] theorem zero_x : (0 : Vector3 ℝ).x = 0 := rfl
@[simp] theorem zero_y : (0 : Vector3 ℝ).y = 0 := rfl
@[simp] theorem zero_z : (0 : Vector3 ℝ).z = 0 := rfl

theorem dotProduct_real : a.dotProduct b = a.x * b.x + a.y * b.y + a.z * b.z := rfl

theorem lengthSquared_real : a.lengthSquared = a.x * a.x + a.y * a.y + a.z * a.z := rfl

theorem crossProduct_real :
    a.crossProduct b = ⟨a.y * b.z - a.z * b.y, a.z * b.x - a.x * b.z, a.x * b.y - a.y * b.x⟩ := rfl

end Operations

/-- The point with these coordinates. -/
noncomputable def point (v : Vector3 ℝ) : Space := WithLp.toLp _ ![v.x, v.y, v.z]

/-- The coordinates of a point. -/
def ofPoint (x : Space) : Vector3 ℝ :=
  ⟨Matrix.vecHead x.ofLp, Matrix.vecHead (Matrix.vecTail x.ofLp),
    Matrix.vecHead (Matrix.vecTail (Matrix.vecTail x.ofLp))⟩

@[simp] theorem point_ofPoint (x : Space) : (ofPoint x).point = x := by
  ext i
  fin_cases i <;> rfl

@[simp] theorem ofPoint_point (v : Vector3 ℝ) : ofPoint v.point = v := rfl

theorem point_injective : Function.Injective point := by
  intro a b h
  rw [← ofPoint_point a, h, ofPoint_point]

@[simp] theorem point_zero : (0 : Vector3 ℝ).point = 0 := by
  ext i
  fin_cases i <;> rfl

@[simp] theorem point_add (a b : Vector3 ℝ) : (a + b).point = a.point + b.point := by
  ext i
  fin_cases i <;> rfl

@[simp] theorem point_sub (a b : Vector3 ℝ) : (a - b).point = a.point - b.point := by
  ext i
  fin_cases i <;> rfl

@[simp] theorem point_neg (a : Vector3 ℝ) : (-a).point = -a.point := by
  ext i
  fin_cases i <;> rfl

@[simp] theorem point_mul (a : Vector3 ℝ) (s : ℝ) : (a * s).point = s • a.point := by
  ext i
  fin_cases i <;> exact mul_comm _ _

theorem inner_point (a b : Vector3 ℝ) : ⟪a.point, b.point⟫ = a.dotProduct b := by
  rw [PiLp.inner_apply, Fin.sum_univ_three, dotProduct_real]
  simp only [point, PiLp.toLp_apply, Matrix.cons_val, RCLike.inner_apply, conj_trivial]
  ring

theorem norm_point_sq (a : Vector3 ℝ) : ‖a.point‖ ^ 2 = a.lengthSquared := by
  rw [← real_inner_self_eq_norm_sq, inner_point]
  rfl

theorem lengthSquared_nonneg (a : Vector3 ℝ) : 0 ≤ a.lengthSquared := by
  rw [← norm_point_sq]
  positivity

theorem lengthSquared_eq_zero {a : Vector3 ℝ} : a.lengthSquared = 0 ↔ a = 0 := by
  rw [← norm_point_sq, sq_eq_zero_iff, norm_eq_zero, ← point_zero]
  exact point_injective.eq_iff

/-! ## Cross products -/

@[simp] theorem crossProduct_x (a b : Vector3 ℝ) : (a.crossProduct b).x = a.y * b.z - a.z * b.y := rfl
@[simp] theorem crossProduct_y (a b : Vector3 ℝ) : (a.crossProduct b).y = a.z * b.x - a.x * b.z := rfl
@[simp] theorem crossProduct_z (a b : Vector3 ℝ) : (a.crossProduct b).z = a.x * b.y - a.y * b.x := rfl

theorem dotProduct_crossProduct_left (a b : Vector3 ℝ) : (a.crossProduct b).dotProduct a = 0 := by
  simp only [dotProduct_real, crossProduct_x, crossProduct_y, crossProduct_z]
  ring

theorem dotProduct_crossProduct_right (a b : Vector3 ℝ) : (a.crossProduct b).dotProduct b = 0 := by
  simp only [dotProduct_real, crossProduct_x, crossProduct_y, crossProduct_z]
  ring

theorem lengthSquared_crossProduct (a b : Vector3 ℝ) :
    (a.crossProduct b).lengthSquared = a.lengthSquared * b.lengthSquared - a.dotProduct b ^ 2 := by
  simp only [lengthSquared_real, dotProduct_real, crossProduct_x, crossProduct_y, crossProduct_z]
  ring

/-- Vectors without a cross product are parallel. -/
theorem exists_mul_of_crossProduct {m n : Vector3 ℝ} (hn : n ≠ 0) (h : m.crossProduct n = 0) :
    ∃ c : ℝ, m = n * c := by
  have hlength : n.lengthSquared ≠ 0 := fun hzero => hn (lengthSquared_eq_zero.mp hzero)
  obtain ⟨hx, hy, hz⟩ := Vector3.ext_iff.mp h
  simp only [crossProduct_x, crossProduct_y, crossProduct_z, zero_x, zero_y, zero_z] at hx hy hz
  rw [lengthSquared_real] at hlength
  refine ⟨(n.x * m.x + n.y * m.y + n.z * m.z) / (n.x * n.x + n.y * n.y + n.z * n.z), ?_⟩
  ext
  · rw [mul_x, mul_div_assoc', eq_div_iff hlength]
    linear_combination n.y * hz - n.z * hy
  · rw [mul_y, mul_div_assoc', eq_div_iff hlength]
    linear_combination n.z * hx - n.x * hz
  · rw [mul_z, mul_div_assoc', eq_div_iff hlength]
    linear_combination n.x * hy - n.y * hx

/-- What is orthogonal to two vectors is parallel to their cross product. -/
theorem exists_mul_of_orthogonal {m a b : Vector3 ℝ} (hab : a.crossProduct b ≠ 0) (ha : m.dotProduct a = 0)
    (hb : m.dotProduct b = 0) : ∃ c : ℝ, m = a.crossProduct b * c := by
  apply exists_mul_of_crossProduct hab
  rw [dotProduct_real] at ha hb
  ext
  · simp only [crossProduct_x, crossProduct_y, crossProduct_z, zero_x]
    linear_combination a.x * hb - b.x * ha
  · simp only [crossProduct_x, crossProduct_y, crossProduct_z, zero_y]
    linear_combination a.y * hb - b.y * ha
  · simp only [crossProduct_x, crossProduct_y, crossProduct_z, zero_z]
    linear_combination a.z * hb - b.z * ha

/-! ## Normalising -/

/-- Zero, or so close to unit length that it is left as it is. -/
def NearUnit (v : Vector3 ℝ) : Prop := v = 0 ∨ |v.lengthSquared - 1| ≤ mEpsilon

theorem nearUnit_of_unit {v : Vector3 ℝ} (h : v.lengthSquared = 1) : NearUnit v := by
  right
  rw [h, mEpsilon_real]
  norm_num

theorem normalize_of_near {v : Vector3 ℝ} (h : |v.lengthSquared - 1| ≤ 1 / 1000000) : v.normalize = v := by
  have hequals : equals v.lengthSquared 1 = true := (equals_real _ _).mpr h
  simp [normalize, hequals]

theorem normalize_zero : (0 : Vector3 ℝ).normalize = 0 := by
  have hlength : (0 : Vector3 ℝ).lengthSquared = 0 := lengthSquared_eq_zero.mpr rfl
  simp [normalize, hlength]

theorem normalize_of_far {v : Vector3 ℝ} (hnear : ¬ |v.lengthSquared - 1| ≤ 1 / 1000000) (hv : v ≠ 0) :
    v.normalize = v * (1 / Real.sqrt v.lengthSquared) := by
  have hequals : equals v.lengthSquared 1 = false := by
    rw [← Bool.not_eq_true, equals_real]
    exact hnear
  have hpos : 0 < v.lengthSquared :=
    lt_of_le_of_ne (lengthSquared_nonneg v) fun hzero => hv (lengthSquared_eq_zero.mp hzero.symm)
  have hlt : lt 0 v.lengthSquared = true := (lt_real _ _).mpr hpos
  rw [normalize, hequals, hlt]
  rfl

theorem lengthSquared_mul (v : Vector3 ℝ) (s : ℝ) : (v * s).lengthSquared = v.lengthSquared * s ^ 2 := by
  simp only [lengthSquared_real, mul_x, mul_y, mul_z]
  ring

/-- Normalising keeps the direction. -/
theorem exists_normalize (v : Vector3 ℝ) : ∃ s : ℝ, 0 < s ∧ v.normalize = v * s := by
  have hone : v * (1 : ℝ) = v := by
    apply point_injective
    rw [point_mul, one_smul]
  by_cases hnear : |v.lengthSquared - 1| ≤ 1 / 1000000
  · exact ⟨1, one_pos, by rw [normalize_of_near hnear, hone]⟩
  · by_cases hv : v = 0
    · exact ⟨1, one_pos, by rw [hone, hv, normalize_zero]⟩
    · have hpos : 0 < v.lengthSquared :=
        lt_of_le_of_ne (lengthSquared_nonneg v) fun hzero => hv (lengthSquared_eq_zero.mp hzero.symm)
      exact ⟨1 / Real.sqrt v.lengthSquared, one_div_pos.mpr (Real.sqrt_pos.mpr hpos), normalize_of_far hnear hv⟩

theorem nearUnit_normalize (v : Vector3 ℝ) : NearUnit v.normalize := by
  by_cases hnear : |v.lengthSquared - 1| ≤ 1 / 1000000
  · rw [normalize_of_near hnear]
    exact Or.inr hnear
  · by_cases hv : v = 0
    · rw [hv, normalize_zero]
      exact Or.inl rfl
    · have hpos : 0 < v.lengthSquared :=
        lt_of_le_of_ne (lengthSquared_nonneg v) fun hzero => hv (lengthSquared_eq_zero.mp hzero.symm)
      have hlength : (v.normalize).lengthSquared = 1 := by
        rw [normalize_of_far hnear hv, lengthSquared_mul, one_div, inv_pow, Real.sq_sqrt hpos.le]
        exact mul_inv_cancel₀ hpos.ne'
      exact nearUnit_of_unit hlength

end Vector3

/-! ## Rotations -/

/-- A quaternion that stands for a rotation. -/
def Quaternion.IsRotation (q : Quaternion ℝ) : Prop := q.w ^ 2 + q.x ^ 2 + q.y ^ 2 + q.z ^ 2 = 1

theorem dotProduct_rotation {q : Quaternion ℝ} (hq : q.IsRotation) (a b : Vector3 ℝ) :
    (q.rotationMatrix.apply a).dotProduct (q.rotationMatrix.apply b) = a.dotProduct b := by
  have htwo : (two : ℝ) = 2 := rfl
  simp only [Quaternion.rotationMatrix, Matrix3.apply, Vector3.dotProduct_real, htwo]
  simp only [Quaternion.IsRotation] at hq
  linear_combination (4 * ((q.y * a.z - q.z * a.y) * (q.y * b.z - q.z * b.y) +
    (q.z * a.x - q.x * a.z) * (q.z * b.x - q.x * b.z) + (q.x * a.y - q.y * a.x) * (q.x * b.y - q.y * b.x))) * hq

theorem lengthSquared_rotation {q : Quaternion ℝ} (hq : q.IsRotation) (a : Vector3 ℝ) :
    (q.rotationMatrix.apply a).lengthSquared = a.lengthSquared :=
  dotProduct_rotation hq a a

/-- The inverse rotation. -/
theorem lengthSquared_transpose_rotation {q : Quaternion ℝ} (hq : q.IsRotation) (a : Vector3 ℝ) :
    (q.rotationMatrix.transpose.apply a).lengthSquared = a.lengthSquared := by
  have hconjugate : q.rotationMatrix.transpose = (⟨q.w, -q.x, -q.y, -q.z⟩ : Quaternion ℝ).rotationMatrix := by
    simp only [Quaternion.rotationMatrix, Matrix3.transpose, Matrix3.mk.injEq]
    refine ⟨?_, ?_, ?_, ?_, ?_, ?_, ?_, ?_, ?_⟩ <;> ring
  have hrotation : (⟨q.w, -q.x, -q.y, -q.z⟩ : Quaternion ℝ).IsRotation := by
    simp only [Quaternion.IsRotation, neg_sq]
    exact hq
  rw [hconjugate]
  exact lengthSquared_rotation hrotation a

end Lumos.Maths
