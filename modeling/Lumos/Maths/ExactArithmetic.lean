import Mathlib
import Lumos.Maths.FloatGeometry
import Lumos.Maths.RealArithmetic

/-!
# Exact arithmetic

The operations of the model are those of a field. Comparisons, roots and literals are left
open.
-/
namespace Lumos.Maths

open FloatArithmetic

class ExactArithmetic (K : Type) extends Field K, FloatInfinity K

instance : ExactArithmetic ℚ where
  toField := inferInstance
  two := two
  epsilon := epsilon
  mEpsilon := mEpsilon
  fltMax := fltMax
  lt := lt
  le := le
  sqrtf := sqrtf
  fabs := fabs
  literal := FloatLiterals.literal
  infinity := FloatInfinity.infinity

@[simp] theorem lt_rat (x y : ℚ) : lt x y = decide (x < y) := rfl

@[simp] theorem le_rat (x y : ℚ) : le x y = decide (x ≤ y) := rfl

@[simp] theorem literal_rat (x : ℚ) : (FloatLiterals.literal x : ℚ) = x := rfl

@[simp] theorem two_rat : (two : ℚ) = 2 := rfl

/-- `2.0f` is two. -/
class ExactLiterals (K : Type) extends ExactArithmetic K where
  two_eq : (two : K) = 1 + 1

theorem two_eq_one_add_one {K : Type} [ExactLiterals K] : (FloatArithmetic.two : K) = 1 + 1 := ExactLiterals.two_eq

instance : ExactLiterals ℚ where
  two_eq := by
    change (2 : ℚ) = 1 + 1
    norm_num

end Lumos.Maths

/-!
# Literals of real numbers

Where nothing is rounded, the literals of the source are the numbers they are written as.
-/
namespace Lumos.Maths

open FloatArithmetic FloatLiterals

noncomputable instance : FloatLiterals ℝ where
  literal := fun q => (q : ℝ)

/-- The largest `float` stands in for infinity. -/
noncomputable instance : FloatInfinity ℝ where
  infinity := fltMax

section Constants

variable (q : ℚ) (a b : ℝ)

theorem literal_real : (literal q : ℝ) = q := rfl

theorem two_real : (two : ℝ) = 2 := rfl

theorem infinity_real : (FloatInfinity.infinity : ℝ) = fltMax := rfl

theorem sqrtf_real : sqrtf a = Real.sqrt a := rfl

theorem lt_eq_false_real : lt a b = false ↔ b ≤ a := by
  rw [← Bool.not_eq_true, lt_real, not_lt]

theorem le_eq_false_real : le a b = false ↔ b < a := by
  rw [← Bool.not_eq_true, le_real, not_le]

theorem minFloat_real : minFloat a b = min a b := by
  by_cases h : a < b
  · rw [minFloat, (lt_real a b).mpr h, min_eq_left h.le]
    rfl
  · rw [minFloat, (lt_eq_false_real a b).mpr (not_lt.mp h), min_eq_right (not_lt.mp h)]
    rfl

theorem maxFloat_real : maxFloat a b = max a b := by
  by_cases h : b < a
  · rw [maxFloat, (lt_real b a).mpr h, max_eq_left h.le]
    rfl
  · rw [maxFloat, (lt_eq_false_real b a).mpr (not_lt.mp h), max_eq_right (not_lt.mp h)]
    rfl

theorem absFloat_real : absFloat a = |a| := by
  by_cases h : 0 ≤ a
  · rw [absFloat, (le_real 0 a).mpr h, abs_of_nonneg h]
    rfl
  · rw [absFloat, (le_eq_false_real 0 a).mpr (not_le.mp h), abs_of_neg (not_le.mp h)]
    rfl

end Constants

end Lumos.Maths

/-!
## Vectors in exact arithmetic

Products of vectors and matrices are linear.
-/
namespace Lumos.Maths

variable {K : Type} [ExactArithmetic K]

namespace Vector3

variable (a b c : Vector3 K) (s : K)

theorem add_dotProduct : (a + b).dotProduct c = a.dotProduct c + b.dotProduct c := by
  change (a.x + b.x) * c.x + (a.y + b.y) * c.y + (a.z + b.z) * c.z =
    a.x * c.x + a.y * c.y + a.z * c.z + (b.x * c.x + b.y * c.y + b.z * c.z)
  ring

theorem sub_dotProduct : (a - b).dotProduct c = a.dotProduct c - b.dotProduct c := by
  change (a.x - b.x) * c.x + (a.y - b.y) * c.y + (a.z - b.z) * c.z =
    a.x * c.x + a.y * c.y + a.z * c.z - (b.x * c.x + b.y * c.y + b.z * c.z)
  ring

theorem mul_dotProduct : (a * s).dotProduct b = a.dotProduct b * s := by
  change a.x * s * b.x + a.y * s * b.y + a.z * s * b.z = (a.x * b.x + a.y * b.y + a.z * b.z) * s
  ring

theorem dotProduct_comm : a.dotProduct b = b.dotProduct a := by
  change a.x * b.x + a.y * b.y + a.z * b.z = b.x * a.x + b.y * a.y + b.z * a.z
  ring

theorem crossProduct_mul : a.crossProduct (b * s) = a.crossProduct b * s := by
  change (⟨a.y * (b.z * s) - a.z * (b.y * s), a.z * (b.x * s) - a.x * (b.z * s),
    a.x * (b.y * s) - a.y * (b.x * s)⟩ : Vector3 K) =
    ⟨(a.y * b.z - a.z * b.y) * s, (a.z * b.x - a.x * b.z) * s, (a.x * b.y - a.y * b.x) * s⟩
  rw [Vector3.mk.injEq]
  refine ⟨?_, ?_, ?_⟩ <;> ring

theorem mul_crossProduct : (a * s).crossProduct b = a.crossProduct b * s := by
  change (⟨a.y * s * b.z - a.z * s * b.y, a.z * s * b.x - a.x * s * b.z,
    a.x * s * b.y - a.y * s * b.x⟩ : Vector3 K) =
    ⟨(a.y * b.z - a.z * b.y) * s, (a.z * b.x - a.x * b.z) * s, (a.x * b.y - a.y * b.x) * s⟩
  rw [Vector3.mk.injEq]
  refine ⟨?_, ?_, ?_⟩ <;> ring

theorem add_crossProduct : (a + b).crossProduct c = a.crossProduct c + b.crossProduct c := by
  change (⟨(a.y + b.y) * c.z - (a.z + b.z) * c.y, (a.z + b.z) * c.x - (a.x + b.x) * c.z,
    (a.x + b.x) * c.y - (a.y + b.y) * c.x⟩ : Vector3 K) =
    ⟨a.y * c.z - a.z * c.y + (b.y * c.z - b.z * c.y), a.z * c.x - a.x * c.z + (b.z * c.x - b.x * c.z),
      a.x * c.y - a.y * c.x + (b.x * c.y - b.y * c.x)⟩
  rw [Vector3.mk.injEq]
  refine ⟨?_, ?_, ?_⟩ <;> ring

theorem sub_mul : a - b * s = a + b * -s := by
  change (⟨a.x - b.x * s, a.y - b.y * s, a.z - b.z * s⟩ : Vector3 K) =
    ⟨a.x + b.x * -s, a.y + b.y * -s, a.z + b.z * -s⟩
  rw [Vector3.mk.injEq]
  refine ⟨?_, ?_, ?_⟩ <;> ring

end Vector3

theorem Matrix3.apply_mul (m : Matrix3 K) (v : Vector3 K) (s : K) : m.apply (v * s) = m.apply v * s := by
  change (⟨m.m00 * (v.x * s) + m.m01 * (v.y * s) + m.m02 * (v.z * s),
    m.m10 * (v.x * s) + m.m11 * (v.y * s) + m.m12 * (v.z * s),
    m.m20 * (v.x * s) + m.m21 * (v.y * s) + m.m22 * (v.z * s)⟩ : Vector3 K) =
    ⟨(m.m00 * v.x + m.m01 * v.y + m.m02 * v.z) * s, (m.m10 * v.x + m.m11 * v.y + m.m12 * v.z) * s,
      (m.m20 * v.x + m.m21 * v.y + m.m22 * v.z) * s⟩
  rw [Vector3.mk.injEq]
  refine ⟨?_, ?_, ?_⟩ <;> ring

end Lumos.Maths
