import Lumos.Maths.Inverses
import Lumos.Maths.Placement
import Lumos.Maths.UnitQuaternions

/-!
# Quaternions that look somewhere

Every rotation matrix is that of a quaternion of unit length, and `FromRotationMatrix` finds it. So the
quaternion of three axes takes the coordinate axes to them, and one that looks in a direction takes the
forward axis to that direction.
-/
namespace Lumos.Maths

open FloatArithmetic FloatLiterals

/-! ## Rotation matrices -/

namespace Matrix3

/-- Of determinant one, with the transpose for an inverse. -/
def IsRotation (m : Matrix3 ℝ) : Prop := m.toMatrix ∈ Matrix.specialOrthogonalGroup (Fin 3) ℝ

theorem toMatrix_transpose (m : Matrix3 ℝ) : m.transpose.toMatrix = m.toMatrix.transpose := by
  ext i j
  fin_cases i <;> fin_cases j <;> rfl

theorem isRotation_iff (m : Matrix3 ℝ) : m.IsRotation ↔ m.product m.transpose = initial ∧ m.toMatrix.det = 1 := by
  rw [IsRotation, Matrix.mem_specialOrthogonalGroup_iff, Matrix.mem_orthogonalGroup_iff, ← toMatrix_transpose,
    ← toMatrix_product, ← toMatrix_initial, toMatrix_injective.eq_iff]

theorem isRotation_iff_columns (m : Matrix3 ℝ) :
    m.IsRotation ↔ m.transpose.product m = initial ∧ m.toMatrix.det = 1 := by
  rw [IsRotation, Matrix.mem_specialOrthogonalGroup_iff, Matrix.mem_orthogonalGroup_iff', ← toMatrix_transpose,
    ← toMatrix_product, ← toMatrix_initial, toMatrix_injective.eq_iff]

variable {m n : Matrix3 ℝ}

theorem IsRotation.product (hm : m.IsRotation) (hn : n.IsRotation) : (m.product n).IsRotation := by
  rw [IsRotation, toMatrix_product]
  exact mul_mem hm hn

theorem IsRotation.rows (h : m.IsRotation) : m.product m.transpose = initial := ((isRotation_iff m).mp h).1

theorem IsRotation.columns (h : m.IsRotation) : m.transpose.product m = initial := ((isRotation_iff_columns m).mp h).1

def adjugate (m : Matrix3 ℝ) : Matrix3 ℝ :=
  ⟨m.m11 * m.m22 - m.m12 * m.m21, -(m.m01 * m.m22) + m.m02 * m.m21, m.m01 * m.m12 - m.m02 * m.m11,
   -(m.m10 * m.m22) + m.m12 * m.m20, m.m00 * m.m22 - m.m02 * m.m20, -(m.m00 * m.m12) + m.m02 * m.m10,
   m.m10 * m.m21 - m.m11 * m.m20, -(m.m00 * m.m21) + m.m01 * m.m20, m.m00 * m.m11 - m.m01 * m.m10⟩

theorem toMatrix_adjugate (m : Matrix3 ℝ) : m.adjugate.toMatrix = m.toMatrix.adjugate :=
  (Matrix.adjugate_fin_three_of _ _ _ _ _ _ _ _ _).symm

/-- Each entry is its own cofactor. -/
theorem IsRotation.adjugate_eq (h : m.IsRotation) : m.adjugate = m.transpose := by
  have hdet := ((isRotation_iff m).mp h).2
  have hrows := congrArg toMatrix h.rows
  rw [toMatrix_product, toMatrix_initial] at hrows
  apply toMatrix_injective
  calc m.adjugate.toMatrix = m.toMatrix.adjugate * (m.toMatrix * m.transpose.toMatrix) := by
        rw [hrows, mul_one, toMatrix_adjugate]
    _ = m.transpose.toMatrix := by rw [← mul_assoc, Matrix.adjugate_mul, hdet, one_smul, one_mul]

end Matrix3

section Quaternions

variable {p q : Quaternion ℝ} {m : Matrix3 ℝ}

theorem isRotation_rotationMatrix (hq : q.IsRotation) : q.rotationMatrix.IsRotation := by
  have htwo : (two : ℝ) = 2 := rfl
  have hunit : q.w ^ 2 + q.x ^ 2 + q.y ^ 2 + q.z ^ 2 = 1 := hq
  rw [Matrix3.isRotation_iff, Matrix3.det_toMatrix]
  constructor
  · simp only [Quaternion.rotationMatrix, Matrix3.product, Matrix3.transpose, Matrix3.initial, Matrix3.mk.injEq, htwo]
    refine ⟨?_, ?_, ?_, ?_, ?_, ?_, ?_, ?_, ?_⟩
    · linear_combination 4 * (q.y ^ 2 + q.z ^ 2) * hunit
    · linear_combination -4 * q.x * q.y * hunit
    · linear_combination -4 * q.x * q.z * hunit
    · linear_combination -4 * q.x * q.y * hunit
    · linear_combination 4 * (q.x ^ 2 + q.z ^ 2) * hunit
    · linear_combination -4 * q.y * q.z * hunit
    · linear_combination -4 * q.x * q.z * hunit
    · linear_combination -4 * q.y * q.z * hunit
    · linear_combination 4 * (q.x ^ 2 + q.y ^ 2) * hunit
  · simp only [Quaternion.rotationMatrix, htwo]
    linear_combination 4 * (q.x ^ 2 + q.y ^ 2 + q.z ^ 2) * hunit

theorem apply_eq_rotationMatrix_apply (q : Quaternion ℝ) (v : Vector3 ℝ) : q.apply v = q.rotationMatrix.apply v := by
  have htwo : (two : ℝ) = 2 := rfl
  ext <;>
    simp only [Quaternion.apply, Quaternion.rotationMatrix, Matrix3.apply, Vector3.add_x, Vector3.add_y, Vector3.add_z,
      Vector3.mul_x, Vector3.mul_y, Vector3.mul_z, Vector3.crossProduct_x, Vector3.crossProduct_y,
      Vector3.crossProduct_z, htwo] <;> ring

/-- A matrix is known by what it does to the axes. -/
theorem Matrix3.eq_of_apply {m n : Matrix3 ℝ} (h : ∀ v, m.apply v = n.apply v) : m = n := by
  have hx := h ⟨1, 0, 0⟩
  have hy := h ⟨0, 1, 0⟩
  have hz := h ⟨0, 0, 1⟩
  simp only [Matrix3.apply, mul_one, mul_zero, add_zero, zero_add, Vector3.mk.injEq] at hx hy hz
  obtain ⟨m00, m01, m02, m10, m11, m12, m20, m21, m22⟩ := m
  simp_all

theorem Matrix3.product_apply (m n : Matrix3 ℝ) (v : Vector3 ℝ) : (m.product n).apply v = m.apply (n.apply v) := by
  simp only [Matrix3.apply, Matrix3.product, Vector3.mk.injEq]
  refine ⟨?_, ?_, ?_⟩ <;> ring

theorem rotationMatrix_product (hp : p.IsRotation) (hq : q.IsRotation) :
    (p.product q).rotationMatrix = p.rotationMatrix.product q.rotationMatrix := by
  apply Matrix3.eq_of_apply
  intro v
  rw [Matrix3.product_apply, ← apply_eq_rotationMatrix_apply, ← apply_eq_rotationMatrix_apply,
    ← apply_eq_rotationMatrix_apply, Quaternion.product_apply hp hq]

/-! ## The quaternion of a rotation matrix -/

/-- The differences across the diagonal, multiplied with one another: four times the products of the components of
the quaternion, each with the trace. -/
structure SkewProducts (m : Matrix3 ℝ) (t : ℝ) : Prop where
  xx : (m.m21 - m.m12) * (m.m21 - m.m12) = t * (1 + m.m00 - m.m11 - m.m22)
  yy : (m.m02 - m.m20) * (m.m02 - m.m20) = t * (1 + m.m11 - m.m00 - m.m22)
  zz : (m.m10 - m.m01) * (m.m10 - m.m01) = t * (1 + m.m22 - m.m00 - m.m11)
  xy : (m.m21 - m.m12) * (m.m02 - m.m20) = t * (m.m01 + m.m10)
  yz : (m.m02 - m.m20) * (m.m10 - m.m01) = t * (m.m12 + m.m21)
  xz : (m.m21 - m.m12) * (m.m10 - m.m01) = t * (m.m02 + m.m20)

theorem skewProducts (h : m.IsRotation) : SkewProducts m (1 + (m.m00 + m.m11 + m.m22)) := by
  have hrows := h.rows
  have hcolumns := h.columns
  have hcofactors := h.adjugate_eq
  simp only [Matrix3.product, Matrix3.transpose, Matrix3.initial, Matrix3.adjugate, Matrix3.mk.injEq]
    at hrows hcolumns hcofactors
  obtain ⟨r00, r01, r02, -, r11, r12, -, -, r22⟩ := hrows
  obtain ⟨c00, c01, c02, -, c11, c12, -, -, c22⟩ := hcolumns
  obtain ⟨a00, a01, a02, a10, a11, a12, a20, a21, a22⟩ := hcofactors
  constructor
  · linear_combination r11 + r22 - c00 + 2 * a00
  · linear_combination r00 + r22 - c11 + 2 * a11
  · linear_combination r00 + r11 - c22 + 2 * a22
  · linear_combination a01 + a10 - r01 - c01
  · linear_combination a12 + a21 - r12 - c12
  · linear_combination a02 + a20 - r02 - c02

/-- Where the angle is not a half turn, the quaternion can be read off the matrix. -/
theorem exists_quaternion_of_trace (h : m.IsRotation) (htrace : 0 < 1 + (m.m00 + m.m11 + m.m22)) :
    ∃ q : Quaternion ℝ, q.IsRotation ∧ q.rotationMatrix = m := by
  have htwo : (two : ℝ) = 2 := rfl
  obtain ⟨s, hs, hsq⟩ : ∃ s : ℝ, s ≠ 0 ∧ s * s = 1 + (m.m00 + m.m11 + m.m22) :=
    ⟨_, (Real.sqrt_pos.mpr htrace).ne', Real.mul_self_sqrt htrace.le⟩
  have hproducts := skewProducts h
  rw [← hsq] at hproducts
  have hdivided : ∀ {a b e : ℝ}, a * b = s * s * e → a / (2 * s) * (b / (2 * s)) = e / 4 := by
    intro a b e hab
    rw [div_mul_div_comm, hab, div_eq_div_iff (mul_ne_zero (mul_ne_zero two_ne_zero hs) (mul_ne_zero two_ne_zero hs))
      four_ne_zero]
    ring
  have hscaled : ∀ a : ℝ, s / 2 * (a / (2 * s)) = a / 4 := by
    intro a
    field_simp
    ring
  refine ⟨⟨s / 2, (m.m21 - m.m12) / (2 * s), (m.m02 - m.m20) / (2 * s), (m.m10 - m.m01) / (2 * s)⟩, ?_, ?_⟩
  · rw [Quaternion.IsRotation]
    linear_combination hdivided hproducts.xx + hdivided hproducts.yy + hdivided hproducts.zz + hsq / 4
  · simp only [Quaternion.rotationMatrix, htwo]
    have hxx := hdivided hproducts.xx
    have hyy := hdivided hproducts.yy
    have hzz := hdivided hproducts.zz
    have hxy := hdivided hproducts.xy
    have hyz := hdivided hproducts.yz
    have hxz := hdivided hproducts.xz
    have hwx := hscaled (m.m21 - m.m12)
    have hwy := hscaled (m.m02 - m.m20)
    have hwz := hscaled (m.m10 - m.m01)
    obtain ⟨m00, m01, m02, m10, m11, m12, m20, m21, m22⟩ := m
    simp only [Matrix3.mk.injEq]
    refine ⟨?_, ?_, ?_, ?_, ?_, ?_, ?_, ?_, ?_⟩
    · linear_combination -2 * hyy - 2 * hzz
    · linear_combination 2 * hxy - 2 * hwz
    · linear_combination 2 * hxz + 2 * hwy
    · linear_combination 2 * hxy + 2 * hwz
    · linear_combination -2 * hxx - 2 * hzz
    · linear_combination 2 * hyz - 2 * hwx
    · linear_combination 2 * hxz - 2 * hwy
    · linear_combination 2 * hyz + 2 * hwx
    · linear_combination -2 * hxx - 2 * hyy

/-- A half turn about one of the axes makes any angle another one than a half turn. -/
theorem exists_quaternion (h : m.IsRotation) : ∃ q : Quaternion ℝ, q.IsRotation ∧ q.rotationMatrix = m := by
  have htwo : (two : ℝ) = 2 := rfl
  have hturned : ∀ turn : Quaternion ℝ, turn.IsRotation → turn.rotationMatrix.product turn.rotationMatrix = .initial →
      0 < 1 + ((m.product turn.rotationMatrix).m00 + (m.product turn.rotationMatrix).m11 +
        (m.product turn.rotationMatrix).m22) → ∃ q : Quaternion ℝ, q.IsRotation ∧ q.rotationMatrix = m := by
    intro turn hturn htwice htrace
    obtain ⟨q, hq, hmatrix⟩ := exists_quaternion_of_trace (h.product (isRotation_rotationMatrix hturn)) htrace
    refine ⟨q.product turn, Quaternion.isRotation_product hq hturn, ?_⟩
    apply Matrix3.toMatrix_injective
    rw [rotationMatrix_product hq hturn, hmatrix, Matrix3.toMatrix_product, Matrix3.toMatrix_product, mul_assoc,
      ← Matrix3.toMatrix_product turn.rotationMatrix, htwice, Matrix3.toMatrix_initial, mul_one]
  by_cases htrace : 0 < 1 + (m.m00 + m.m11 + m.m22)
  · exact exists_quaternion_of_trace h htrace
  · by_cases hx : 0 < 1 + (m.m00 - m.m11 - m.m22)
    · refine hturned ⟨0, 1, 0, 0⟩ ?_ ?_ ?_
      · norm_num [Quaternion.IsRotation]
      · norm_num [Quaternion.rotationMatrix, Matrix3.product, Matrix3.initial, htwo]
      · norm_num [Quaternion.rotationMatrix, Matrix3.product, htwo]
        linarith
    · by_cases hy : 0 < 1 + (m.m11 - m.m00 - m.m22)
      · refine hturned ⟨0, 0, 1, 0⟩ ?_ ?_ ?_
        · norm_num [Quaternion.IsRotation]
        · norm_num [Quaternion.rotationMatrix, Matrix3.product, Matrix3.initial, htwo]
        · norm_num [Quaternion.rotationMatrix, Matrix3.product, htwo]
          linarith
      · refine hturned ⟨0, 0, 0, 1⟩ ?_ ?_ ?_
        · norm_num [Quaternion.IsRotation]
        · norm_num [Quaternion.rotationMatrix, Matrix3.product, Matrix3.initial, htwo]
        · norm_num [Quaternion.rotationMatrix, Matrix3.product, htwo]
          linarith

/-- `FromRotationMatrix` finds one. -/
theorem rotationMatrix_fromRotationMatrix (h : m.IsRotation) :
    (Quaternion.fromRotationMatrix m).IsRotation ∧ (Quaternion.fromRotationMatrix m).rotationMatrix = m := by
  obtain ⟨q, hq, rfl⟩ := exists_quaternion h
  rcases fromRotationMatrix_rotationMatrix hq with heq | heq
  · rw [heq]
    exact ⟨hq, rfl⟩
  · rw [heq]
    constructor
    · simpa only [Quaternion.IsRotation, Quaternion.neg, neg_sq] using hq
    · simp only [Quaternion.rotationMatrix, Quaternion.neg, Matrix3.mk.injEq]
      refine ⟨?_, ?_, ?_, ?_, ?_, ?_, ?_, ?_, ?_⟩ <;> ring

end Quaternions

/-! ## The code -/

namespace Quaternion

section Code

variable {K : Type} [FloatLiterals K]

/-- `M_DEGTORAD_2` -/
def degToRad2 : K := literal (314159265358979323846264338327950288 / 10 ^ 35) / literal 360

def forwardAxis : Vector3 K := ⟨0, 0, 1⟩

def rightAxis : Vector3 K := ⟨1, 0, 0⟩

def upAxis : Vector3 K := ⟨0, 1, 0⟩

/-- `Length` -/
def axisLength (v : Vector3 K) : K := sqrtf v.lengthSquared

/-- `IsNaN`: what is not even at most itself. -/
def isNaN (q : Quaternion K) : Bool := !le q.w q.w || !le q.x q.x || !le q.y q.y || !le q.z q.z

variable (sinf cosf : K → K)

def fromAngleAxis (angle : K) (axis : Vector3 K) : Quaternion K :=
  let normAxis := axis.normalize
  let angle := angle * degToRad2
  let sinAngle := sinf angle
  let cosAngle := cosf angle
  ⟨cosAngle, normAxis.x * sinAngle, normAxis.y * sinAngle, normAxis.z * sinAngle⟩

def fromRotationTo (start finish : Vector3 K) : Quaternion K :=
  let normStart := start.normalize
  let normEnd := finish.normalize
  let d := normStart.dotProduct normEnd
  if lt (-1 + mEpsilon) d then
    let c := normStart.crossProduct normEnd
    let s := sqrtf ((1 + d) * two)
    let invS := 1 / s
    ⟨literal (1 / 2) * s, c.x * invS, c.y * invS, c.z * invS⟩
  else
    let axis := rightAxis.crossProduct normStart
    let axis := if lt (axisLength axis) mEpsilon then upAxis.crossProduct normStart else axis
    fromAngleAxis sinf cosf (literal 180) axis

def fromAxes (xAxis yAxis zAxis : Vector3 K) : Quaternion K :=
  fromRotationMatrix
    ⟨xAxis.x, yAxis.x, zAxis.x,
     xAxis.y, yAxis.y, zAxis.y,
     xAxis.z, yAxis.z, zAxis.z⟩

/-- The quaternion stays as it is where the result is not a number. -/
def fromLookRotation (q : Quaternion K) (direction up : Vector3 K) : Bool × Quaternion K :=
  let forward := direction.normalize
  let v := forward.crossProduct up
  let ret :=
    if le mEpsilon v.lengthSquared then
      let v := v.normalize
      let up := v.crossProduct forward
      let right := up.crossProduct forward
      fromAxes right up forward
    else fromRotationTo sinf cosf forwardAxis forward
  if !ret.isNaN then (true, ret) else (false, q)

def lookAt (source target up : Vector3 K) : Quaternion K :=
  (fromLookRotation sinf cosf identity (source - target) up).2

end Code

/-! ## Where they look -/

section Looking

variable {direction up start finish x y z : Vector3 ℝ}

/-- Normalising gives a vector of unit length. -/
def Exact (v : Vector3 ℝ) : Prop := v.normalize.lengthSquared = 1

/-- All are but those near unit length, which are left as they are, and zero. -/
theorem exact_direction_iff (v : Vector3 ℝ) : Exact v ↔ v.lengthSquared = 1 ∨ v ≠ 0 ∧ 1 / 1000000 < |v.lengthSquared - 1| := by
  by_cases hnear : |v.lengthSquared - 1| ≤ 1 / 1000000
  · rw [Exact, Vector3.normalize_of_near hnear]
    exact ⟨Or.inl, fun h => h.resolve_right fun hfar => not_lt.mpr hnear hfar.2⟩
  · by_cases hv : v = 0
    · rw [Exact, hv, Vector3.normalize_zero]
      simp [Vector3.lengthSquared_real]
    · have hpos : 0 < v.lengthSquared := lt_of_le_of_ne v.lengthSquared_nonneg
        fun hzero => hv (Vector3.lengthSquared_eq_zero.mp hzero.symm)
      have hlength : Exact v := by
        rw [Exact, Vector3.normalize_of_far hnear hv, Vector3.lengthSquared_mul, one_div, inv_pow, Real.sq_sqrt hpos.le,
          mul_inv_cancel₀ hpos.ne']
      exact iff_of_true hlength (Or.inr ⟨hv, not_le.mp hnear⟩)

theorem isNaN_real (q : Quaternion ℝ) : q.isNaN = false := by
  have hle : ∀ a : ℝ, le a a = true := fun a => (le_real a a).mpr le_rfl
  simp [isNaN, hle]

/-- Two axes at a right angle and the third by the right-hand rule. -/
structure Axes (x y z : Vector3 ℝ) : Prop where
  y_unit : y.lengthSquared = 1
  z_unit : z.lengthSquared = 1
  orthogonal : y.dotProduct z = 0
  cross : x = y.crossProduct z

/-- They are the columns of a rotation matrix. -/
theorem Axes.isRotation (h : Axes x y z) :
    (⟨x.x, y.x, z.x, x.y, y.y, z.y, x.z, y.z, z.z⟩ : Matrix3 ℝ).IsRotation := by
  obtain ⟨hy, hz, horthogonal, hx⟩ := h
  have hxx : x.dotProduct x = 1 := by
    change x.lengthSquared = 1
    rw [hx, Vector3.lengthSquared_crossProduct, hy, hz, horthogonal]
    norm_num
  have hxy : x.dotProduct y = 0 := hx ▸ Vector3.dotProduct_crossProduct_left y z
  have hxz : x.dotProduct z = 0 := hx ▸ Vector3.dotProduct_crossProduct_right y z
  have hdet : x.dotProduct (y.crossProduct z) = 1 := hx ▸ hxx
  rw [Matrix3.isRotation_iff_columns, Matrix3.det_toMatrix]
  constructor
  · have hback : ∀ {a b : Vector3 ℝ}, a.dotProduct b = 0 → b.dotProduct a = 0 :=
      fun h => (Vector3.dotProduct_comm _ _).trans h
    simp only [Matrix3.product, Matrix3.transpose, Matrix3.initial, Matrix3.mk.injEq]
    exact ⟨hxx, hxy, hxz, hback hxy, hy, horthogonal, hback hxz, hback horthogonal, hz⟩
  · simp only [Vector3.dotProduct_real, Vector3.crossProduct_x, Vector3.crossProduct_y, Vector3.crossProduct_z] at hdet
    linear_combination hdet

theorem Axes.fromAxes (h : Axes x y z) : (fromAxes x y z).IsRotation ∧ (fromAxes x y z).apply rightAxis = x ∧
    (fromAxes x y z).apply upAxis = y ∧ (fromAxes x y z).apply forwardAxis = z := by
  obtain ⟨hunit, hmatrix⟩ := rotationMatrix_fromRotationMatrix h.isRotation
  refine ⟨hunit, ?_, ?_, ?_⟩
  · rw [apply_eq_rotationMatrix_apply, Quaternion.fromAxes, hmatrix]
    ext <;> simp [Matrix3.apply, rightAxis]
  · rw [apply_eq_rotationMatrix_apply, Quaternion.fromAxes, hmatrix]
    ext <;> simp [Matrix3.apply, upAxis]
  · rw [apply_eq_rotationMatrix_apply, Quaternion.fromAxes, hmatrix]
    ext <;> simp [Matrix3.apply, forwardAxis]

theorem normalize_of_unit {v : Vector3 ℝ} (hv : v.lengthSquared = 1) : v.normalize = v := by
  apply Vector3.normalize_of_near
  rw [hv]
  norm_num

/-- The cross product turns the one towards the other. -/
theorem crossProduct_crossProduct_of_unit (hstart : start.lengthSquared = 1) :
    (start.crossProduct finish).crossProduct start = finish - start * (start.dotProduct finish) := by
  rw [Vector3.lengthSquared_real] at hstart
  ext
  · simp only [Vector3.crossProduct_x, Vector3.crossProduct_y, Vector3.crossProduct_z, Vector3.sub_x, Vector3.mul_x,
      Vector3.dotProduct_real]
    linear_combination finish.x * hstart
  · simp only [Vector3.crossProduct_x, Vector3.crossProduct_y, Vector3.crossProduct_z, Vector3.sub_y, Vector3.mul_y,
      Vector3.dotProduct_real]
    linear_combination finish.y * hstart
  · simp only [Vector3.crossProduct_x, Vector3.crossProduct_y, Vector3.crossProduct_z, Vector3.sub_z, Vector3.mul_z,
      Vector3.dotProduct_real]
    linear_combination finish.z * hstart

/-- What is at a right angle to a vector comes back reversed after two cross products with it. -/
theorem crossProduct_crossProduct_of_orthogonal {c v : Vector3 ℝ} (h : c.dotProduct v = 0) :
    c.crossProduct (c.crossProduct v) = v * -c.lengthSquared := by
  rw [Vector3.dotProduct_real] at h
  ext
  · simp only [Vector3.crossProduct_x, Vector3.crossProduct_y, Vector3.crossProduct_z, Vector3.mul_x,
      Vector3.lengthSquared_real]
    linear_combination c.x * h
  · simp only [Vector3.crossProduct_x, Vector3.crossProduct_y, Vector3.crossProduct_z, Vector3.mul_y,
      Vector3.lengthSquared_real]
    linear_combination c.y * h
  · simp only [Vector3.crossProduct_x, Vector3.crossProduct_y, Vector3.crossProduct_z, Vector3.mul_z,
      Vector3.lengthSquared_real]
    linear_combination c.z * h

/-- From one unit vector to another one that is not opposite to it. -/
theorem fromRotationTo_spec (sinf cosf : ℝ → ℝ) (hstart : start.lengthSquared = 1)
    (hfinish : finish.lengthSquared = 1) (hopposite : -1 + 1 / 1000000 < start.dotProduct finish) :
    (fromRotationTo sinf cosf start finish).IsRotation ∧
      (fromRotationTo sinf cosf start finish).apply start = finish := by
  have hhalf : (literal (1 / 2) : ℝ) = 1 / 2 := by
    rw [literal_real]
    norm_num
  have htwo : (two : ℝ) = 2 := rfl
  have hlt : lt (-1 + mEpsilon) (start.dotProduct finish) = true := (lt_real _ _).mpr hopposite
  have hcc := Vector3.lengthSquared_crossProduct start finish
  have hca : (start.crossProduct finish).crossProduct start = finish - start * (start.dotProduct finish) :=
    crossProduct_crossProduct_of_unit hstart
  have hcca := crossProduct_crossProduct_of_orthogonal (Vector3.dotProduct_crossProduct_left start finish)
  rw [fromRotationTo, normalize_of_unit hstart, normalize_of_unit hfinish, if_pos hlt]
  rw [hstart, hfinish] at hcc
  generalize start.crossProduct finish = c at hcc hca hcca ⊢
  generalize start.dotProduct finish = d at hopposite hcc hca ⊢
  have hpos : 0 < (1 + d) * 2 := by linarith
  obtain ⟨s, i, hroot, hsq, hi, hii⟩ : ∃ s i : ℝ, sqrtf ((1 + d) * two) = s ∧ s * s = (1 + d) * 2 ∧ 1 / s = i ∧
      i * s = 1 :=
    ⟨_, _, rfl, Real.mul_self_sqrt hpos.le, rfl, one_div_mul_cancel (Real.sqrt_pos.mpr hpos).ne'⟩
  have hinv : i * i * ((1 + d) * 2) = 1 := by
    rw [← hsq]
    linear_combination (i * s + 1) * hii
  simp only [hroot, hi, hhalf]
  constructor
  · rw [Vector3.lengthSquared_real] at hcc
    rw [IsRotation]
    linear_combination hsq / 4 + i ^ 2 * hcc + (1 - d) / 2 * hinv
  · have hcross1 : (⟨c.x * i, c.y * i, c.z * i⟩ : Vector3 ℝ).crossProduct start = (finish - start * d) * i := by
      rw [← hca]
      exact Vector3.mul_crossProduct c start i
    have hcross2 : (⟨c.x * i, c.y * i, c.z * i⟩ : Vector3 ℝ).crossProduct ((finish - start * d) * i) =
        start * -c.lengthSquared * i * i := by
      rw [← hcca, ← hca]
      exact (Vector3.mul_crossProduct c _ i).trans (by rw [Vector3.crossProduct_mul])
    rw [apply]
    simp only [hcross1, hcross2, hcc]
    ext
    · simp only [Vector3.add_x, Vector3.mul_x, Vector3.sub_x, htwo]
      linear_combination (finish.x - start.x * d) * hii + start.x * (d - 1) * hinv
    · simp only [Vector3.add_y, Vector3.mul_y, Vector3.sub_y, htwo]
      linear_combination (finish.y - start.y * d) * hii + start.y * (d - 1) * hinv
    · simp only [Vector3.add_z, Vector3.mul_z, Vector3.sub_z, htwo]
      linear_combination (finish.z - start.z * d) * hii + start.z * (d - 1) * hinv

/-- The result is taken, as real numbers are numbers. -/
theorem fromLookRotation_eq (sinf cosf : ℝ → ℝ) (q : Quaternion ℝ) (direction up : Vector3 ℝ) :
    fromLookRotation sinf cosf q direction up =
      (true, if le mEpsilon (direction.normalize.crossProduct up).lengthSquared then
        Quaternion.fromAxes
          (((direction.normalize.crossProduct up).normalize.crossProduct direction.normalize).crossProduct
            direction.normalize)
          ((direction.normalize.crossProduct up).normalize.crossProduct direction.normalize) direction.normalize
        else fromRotationTo sinf cosf forwardAxis direction.normalize) := by
  simp only [fromLookRotation, isNaN_real, Bool.not_false, if_true]

/-- Where the direction is not upwards or downwards, the right axis stays level and the other one points upwards. -/
theorem fromAxes_looks {f : Vector3 ℝ} (hf : f.lengthSquared = 1) (hup : 1 / 1000000 ≤ (f.crossProduct up).lengthSquared)
    (hside : Exact (f.crossProduct up)) :
    let v := (f.crossProduct up).normalize
    let look := Quaternion.fromAxes ((v.crossProduct f).crossProduct f) (v.crossProduct f) f
    look.IsRotation ∧ look.apply forwardAxis = f ∧ (look.apply rightAxis).dotProduct up = 0 ∧
      0 < (look.apply upAxis).dotProduct up := by
  intro v look
  obtain ⟨s, hs, hnormal⟩ := (f.crossProduct up).exists_normalize
  change v = _ at hnormal
  have hv : v.lengthSquared = 1 := hside
  have hvf : v.dotProduct f = 0 := by
    rw [hnormal, Vector3.mul_dotProduct, Vector3.dotProduct_crossProduct_left, zero_mul]
  have haxes : Axes ((v.crossProduct f).crossProduct f) (v.crossProduct f) f := by
    refine ⟨?_, hf, Vector3.dotProduct_crossProduct_right v f, rfl⟩
    rw [Vector3.lengthSquared_crossProduct, hv, hf, hvf]
    norm_num
  obtain ⟨hunit, hright, htop, hforward⟩ := haxes.fromAxes
  refine ⟨hunit, hforward, ?_, ?_⟩
  · have hback : ((v.crossProduct f).crossProduct f).dotProduct up =
        v.dotProduct f * f.dotProduct up - v.dotProduct up * f.lengthSquared := by
      simp only [Vector3.dotProduct_real, Vector3.crossProduct_x, Vector3.crossProduct_y, Vector3.crossProduct_z,
        Vector3.lengthSquared_real]
      ring
    rw [hright, hback, hvf, hnormal, Vector3.mul_dotProduct, Vector3.dotProduct_crossProduct_right]
    ring
  · have hcyclic : (v.crossProduct f).dotProduct up = v.dotProduct (f.crossProduct up) := by
      simp only [Vector3.dotProduct_real, Vector3.crossProduct_x, Vector3.crossProduct_y, Vector3.crossProduct_z]
      ring
    rw [htop, hcyclic, hnormal, Vector3.mul_dotProduct]
    exact mul_pos (lt_of_lt_of_le (by norm_num) hup) hs

theorem forwardAxis_dotProduct (v : Vector3 ℝ) : forwardAxis.dotProduct v = v.z := by
  simp [Vector3.dotProduct_real, forwardAxis]

theorem forwardAxis_unit : (forwardAxis : Vector3 ℝ).lengthSquared = 1 := by
  simp [Vector3.lengthSquared_real, forwardAxis]

/-- `FromLookRotation` finds a quaternion, and it is of unit length and takes the forward axis to the direction. Where
the direction is not that of `up`, it leaves the right axis level and the other one upwards. -/
theorem fromLookRotation_looks (sinf cosf : ℝ → ℝ) (q : Quaternion ℝ) (hdirection : Exact direction)
    (hside : 1 / 1000000 ≤ (direction.normalize.crossProduct up).lengthSquared →
      Exact (direction.normalize.crossProduct up))
    (hopposite : (direction.normalize.crossProduct up).lengthSquared < 1 / 1000000 →
      -1 + 1 / 1000000 < direction.normalize.z) :
    ∃ look : Quaternion ℝ, fromLookRotation sinf cosf q direction up = (true, look) ∧ look.IsRotation ∧
      look.apply forwardAxis = direction.normalize ∧
      (1 / 1000000 ≤ (direction.normalize.crossProduct up).lengthSquared →
        (look.apply rightAxis).dotProduct up = 0 ∧ 0 < (look.apply upAxis).dotProduct up) := by
  rw [fromLookRotation_eq]
  by_cases hup : 1 / 1000000 ≤ (direction.normalize.crossProduct up).lengthSquared
  · have hle : le mEpsilon (direction.normalize.crossProduct up).lengthSquared = true := (le_real _ _).mpr hup
    obtain ⟨hunit, hforward, hlevel⟩ := fromAxes_looks hdirection hup (hside hup)
    rw [if_pos hle]
    exact ⟨_, rfl, hunit, hforward, fun _ => hlevel⟩
  · have hle : le mEpsilon (direction.normalize.crossProduct up).lengthSquared = false :=
      (le_eq_false_real _ _).mpr (not_le.mp hup)
    have hdot := hopposite (not_le.mp hup)
    rw [← forwardAxis_dotProduct] at hdot
    obtain ⟨hunit, hforward⟩ := fromRotationTo_spec sinf cosf forwardAxis_unit hdirection hdot
    rw [hle]
    exact ⟨_, rfl, hunit, hforward, fun h => absurd h hup⟩

/-- From above, onto the origin. -/
theorem fromLookRotation_looks_down : ∃ look : Quaternion ℝ,
    fromLookRotation Real.sin Real.cos identity (⟨0, 1, 0⟩ : Vector3 ℝ) upAxis = (true, look) ∧ look.IsRotation ∧
      look.apply forwardAxis = ⟨0, 1, 0⟩ := by
  have hunit : (⟨0, 1, 0⟩ : Vector3 ℝ).lengthSquared = 1 := by norm_num [Vector3.lengthSquared_real]
  have hsame := normalize_of_unit hunit
  have hexact : Exact (⟨0, 1, 0⟩ : Vector3 ℝ) := by rwa [Exact, hsame]
  have hparallel : ((⟨0, 1, 0⟩ : Vector3 ℝ).normalize.crossProduct upAxis).lengthSquared = 0 := by
    rw [hsame]
    norm_num [Vector3.lengthSquared_real, upAxis]
  obtain ⟨look, hlook, hrotation, hforward, -⟩ := fromLookRotation_looks Real.sin Real.cos identity hexact
    (fun h => absurd h (by rw [hparallel]; norm_num)) (fun _ => by rw [hsame]; norm_num)
  exact ⟨look, hlook, hrotation, hforward.trans hsame⟩

/-- From any point to another one, as long as no length that is to be one is only nearly one. -/
theorem lookAt_isRotation (sinf cosf : ℝ → ℝ) {source target : Vector3 ℝ} (hdirection : Exact (source - target))
    (hside : 1 / 1000000 ≤ ((source - target).normalize.crossProduct upAxis).lengthSquared →
      Exact ((source - target).normalize.crossProduct upAxis)) :
    (lookAt sinf cosf source target upAxis).IsRotation := by
  rw [lookAt, fromLookRotation_eq]
  by_cases hup : 1 / 1000000 ≤ ((source - target).normalize.crossProduct upAxis).lengthSquared
  · have hle : le mEpsilon ((source - target).normalize.crossProduct upAxis).lengthSquared = true := (le_real _ _).mpr hup
    rw [if_pos hle]
    exact (fromAxes_looks hdirection hup (hside hup)).1
  · have hle : le mEpsilon ((source - target).normalize.crossProduct upAxis).lengthSquared = false :=
      (le_eq_false_real _ _).mpr (not_le.mp hup)
    -- straight up or down is at a right angle to the forward axis
    have hz : (source - target).normalize.z ^ 2 < 1 / 1000000 := by
      rw [Vector3.lengthSquared_real] at hup
      simp only [Vector3.crossProduct_x, Vector3.crossProduct_y, Vector3.crossProduct_z, upAxis] at hup
      nlinarith [sq_nonneg (source - target).normalize.x]
    rw [hle]
    refine (fromRotationTo_spec sinf cosf forwardAxis_unit hdirection ?_).1
    rw [forwardAxis_dotProduct]
    nlinarith

end Looking

end Quaternion

end Lumos.Maths
