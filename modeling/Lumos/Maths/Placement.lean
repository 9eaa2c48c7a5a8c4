import Lumos.Maths.Decomposition
import Lumos.Maths.ExactArithmetic

/-!
# Taking a matrix apart

A matrix that is put together of a translation, a rotation and a scale that does not mirror is
taken apart into these again, up to the sign of the quaternion. So the local matrix of a
`Transform` is always that of its position, orientation and scale.
-/
namespace Lumos.Maths

open FloatArithmetic FloatLiterals

/-- Nothing is rounded. -/
noncomputable scoped instance : ExactArithmetic ℝ where
  toField := inferInstance
  two := two
  epsilon := epsilon
  mEpsilon := mEpsilon
  fltMax := fltMax
  lt := lt
  le := le
  sqrtf := sqrtf
  fabs := fabs
  literal := FloatLiterals.literal
  infinity := FloatInfinity.infinity

/-- `Decompose`, with the translation, the rotation and the scale it stores. -/
def Matrix4.decompose {K : Type} [FloatLiterals K] (m : Matrix4 K) : Vector3 K × Quaternion K × Vector3 K :=
  let translation : Vector3 K := ⟨m.m03, m.m13, m.m23⟩
  let scale : Vector3 K :=
    ⟨sqrtf (m.m00 * m.m00 + m.m10 * m.m10 + m.m20 * m.m20), sqrtf (m.m01 * m.m01 + m.m11 * m.m11 + m.m21 * m.m21),
      sqrtf (m.m02 * m.m02 + m.m12 * m.m12 + m.m22 * m.m22)⟩
  let invScale : Vector3 K := ⟨1 / scale.x, 1 / scale.y, 1 / scale.z⟩
  (translation, Quaternion.fromRotationMatrix (m.toMatrix3.scaled invScale), scale)

/-- `operator-` -/
def Quaternion.neg {K : Type} [FloatArithmetic K] (q : Quaternion K) : Quaternion K := ⟨-q.w, -q.x, -q.y, -q.z⟩

/-! ## Quaternions of rotations -/

section Quaternions

variable {q : Quaternion ℝ}

/-- The greatest component is the root of an expression in the diagonal, and the others are products with
it. -/
theorem exists_sign {c e : ℝ} (hc : c ≠ 0) (he : e = 4 * c ^ 2) : ∃ sign : ℝ, (sign = 1 ∨ sign = -1) ∧
    literal (1 / 4) / (literal (1 / 2) / sqrtf e) = sign * c ∧
    ∀ d, 4 * (c * d) * (literal (1 / 2) / sqrtf e) = sign * d := by
  have hroot : sqrtf e = 2 * |c| := by
    rw [sqrtf_real, he, show 4 * c ^ 2 = (2 * |c|) ^ 2 by rw [mul_pow, sq_abs]; norm_num]
    exact Real.sqrt_sq (by positivity)
  have hhalf : (literal (1 / 2) : ℝ) = 1 / 2 := by rw [literal_real]; norm_num
  have hquarter : (literal (1 / 4) : ℝ) = 1 / 4 := by rw [literal_real]; norm_num
  have habs : |c| ≠ 0 := abs_ne_zero.mpr hc
  refine ⟨c / |c|, ?_, ?_, fun d => ?_⟩
  · rcases abs_choice c with h | h
    · exact Or.inl (by rw [h, div_self hc])
    · exact Or.inr (by rw [h, div_neg, div_self hc])
  · rw [hroot, hhalf, hquarter, div_mul_eq_mul_div, ← sq, ← sq_abs]
    field_simp
    norm_num
  · rw [hroot, hhalf]
    field_simp
    ring

theorem eq_or_eq_neg_of_sign {p : Quaternion ℝ} {sign : ℝ} (hsign : sign = 1 ∨ sign = -1)
    (h : p = ⟨sign * q.w, sign * q.x, sign * q.y, sign * q.z⟩) : p = q ∨ p = q.neg := by
  rcases hsign with rfl | rfl
  · exact Or.inl (by rw [h]; simp)
  · exact Or.inr (by rw [h, Quaternion.neg]; simp)

theorem fromRotationMatrix_rotationMatrix (hq : q.IsRotation) :
    Quaternion.fromRotationMatrix q.rotationMatrix = q ∨ Quaternion.fromRotationMatrix q.rotationMatrix = q.neg := by
  have htwo : (two : ℝ) = 2 := rfl
  rw [Quaternion.IsRotation] at hq
  unfold Quaternion.fromRotationMatrix
  simp only [Quaternion.rotationMatrix, htwo]
  split
  · next htrace =>
    rw [lt_real] at htrace
    have hw : q.w ≠ 0 := by
      intro h
      rw [h] at hq
      nlinarith
    obtain ⟨sign, hsign, hlead, hother⟩ := exists_sign hw (e := 1 + (1 - 2 * q.y * q.y - 2 * q.z * q.z +
      (1 - 2 * q.x * q.x - 2 * q.z * q.z) + (1 - 2 * q.x * q.x - 2 * q.y * q.y))) (by linear_combination -4 * hq)
    refine eq_or_eq_neg_of_sign hsign ?_
    rw [hlead, ← hother q.x, ← hother q.y, ← hother q.z]
    congr 1 <;> ring
  next htrace =>
  rw [lt_real, not_lt] at htrace
  split
  · next hx =>
    rw [Bool.and_eq_true, lt_real, lt_real] at hx
    have hlead : q.x ≠ 0 := by
      intro h
      rw [h] at hx
      nlinarith [sq_nonneg q.y]
    obtain ⟨sign, hsign, hlead, hother⟩ := exists_sign hlead (e := 1 + (1 - 2 * q.y * q.y - 2 * q.z * q.z) -
      (1 - 2 * q.x * q.x - 2 * q.z * q.z) - (1 - 2 * q.x * q.x - 2 * q.y * q.y)) (by ring)
    refine eq_or_eq_neg_of_sign hsign ?_
    rw [hlead, ← hother q.w, ← hother q.y, ← hother q.z]
    congr 1 <;> ring
  next hx =>
  rw [Bool.and_eq_true, lt_real, lt_real, not_and_or, not_lt, not_lt] at hx
  split
  · next hy =>
    rw [lt_real] at hy
    have hlead : q.y ≠ 0 := by
      intro h
      rw [h] at hy
      nlinarith [sq_nonneg q.z]
    obtain ⟨sign, hsign, hlead, hother⟩ := exists_sign hlead (e := 1 + (1 - 2 * q.x * q.x - 2 * q.z * q.z) -
      (1 - 2 * q.y * q.y - 2 * q.z * q.z) - (1 - 2 * q.x * q.x - 2 * q.y * q.y)) (by ring)
    refine eq_or_eq_neg_of_sign hsign ?_
    rw [hlead, ← hother q.w, ← hother q.x, ← hother q.z]
    congr 1 <;> ring
  next hy =>
  rw [lt_real, not_lt] at hy
  have hlead : q.z ≠ 0 := by
    intro h
    rw [h] at hx hy htrace hq
    rcases hx with hx | hx <;> nlinarith [sq_nonneg q.w]
  obtain ⟨sign, hsign, hlead, hother⟩ := exists_sign hlead (e := 1 + (1 - 2 * q.x * q.x - 2 * q.y * q.y) -
    (1 - 2 * q.y * q.y - 2 * q.z * q.z) - (1 - 2 * q.x * q.x - 2 * q.z * q.z)) (by ring)
  refine eq_or_eq_neg_of_sign hsign ?_
  rw [hlead, ← hother q.w, ← hother q.x, ← hother q.y]
  congr 1 <;> ring

end Quaternions

/-! ## Compositions -/

/-- `Translation(t) * RotationMatrix4(q) * Scale(s)` -/
def Matrix4.compose {K : Type} [CommRing K] (t : Vector3 K) (q : Quaternion K) (s : Vector3 K) : Matrix4 K :=
  translation t * q.rotationMatrix4 * scale s

/-- Where something is, how it is turned and how large it is. -/
structure Placement where
  translation : Vector3 ℝ
  rotation : Quaternion ℝ
  scale : Vector3 ℝ
  unit : rotation.IsRotation
  scale_x : 0 < scale.x
  scale_y : 0 < scale.y
  scale_z : 0 < scale.z

namespace Placement

variable (p : Placement)

noncomputable def matrix : Matrix4 ℝ := .compose p.translation p.rotation p.scale

theorem matrix_eq : p.matrix =
    ⟨p.rotation.rotationMatrix.m00 * p.scale.x, p.rotation.rotationMatrix.m01 * p.scale.y,
     p.rotation.rotationMatrix.m02 * p.scale.z, p.translation.x,
     p.rotation.rotationMatrix.m10 * p.scale.x, p.rotation.rotationMatrix.m11 * p.scale.y,
     p.rotation.rotationMatrix.m12 * p.scale.z, p.translation.y,
     p.rotation.rotationMatrix.m20 * p.scale.x, p.rotation.rotationMatrix.m21 * p.scale.y,
     p.rotation.rotationMatrix.m22 * p.scale.z, p.translation.z,
     0, 0, 0, 1⟩ := by
  have htwo : (two : ℝ) = 2 := rfl
  simp only [matrix, Matrix4.compose, Matrix4.mul_def, Matrix4.mul, Matrix4.translation, Matrix4.scale,
    Quaternion.rotationMatrix4, Quaternion.rotationMatrix, htwo, Matrix4.mk.injEq]
  and_intros <;> ring

theorem position_matrix : p.matrix.position = p.translation := by rw [matrix_eq]; rfl

/-- A column of a rotation is as long as its scale makes it. -/
theorem sqrtf_column {a b c s : ℝ} (hs : 0 < s) (hunit : a * a + b * b + c * c = 1) :
    sqrtf (a * s * (a * s) + b * s * (b * s) + c * s * (c * s)) = s := by
  rw [sqrtf_real, show a * s * (a * s) + b * s * (b * s) + c * s * (c * s) = s ^ 2 by linear_combination s ^ 2 * hunit]
  exact Real.sqrt_sq hs.le

theorem scalePart_matrix : p.matrix.scalePart = p.scale := by
  have hunit := p.unit
  have htwo : (two : ℝ) = 2 := rfl
  rw [Quaternion.IsRotation] at hunit
  rw [matrix_eq, Matrix4.scalePart]
  dsimp only
  rw [sqrtf_column p.scale_x, sqrtf_column p.scale_y, sqrtf_column p.scale_z]
  · simp only [Quaternion.rotationMatrix, htwo]
    linear_combination (4 * (p.rotation.x ^ 2 + p.rotation.y ^ 2)) * hunit
  · simp only [Quaternion.rotationMatrix, htwo]
    linear_combination (4 * (p.rotation.x ^ 2 + p.rotation.z ^ 2)) * hunit
  · simp only [Quaternion.rotationMatrix, htwo]
    linear_combination (4 * (p.rotation.y ^ 2 + p.rotation.z ^ 2)) * hunit

theorem rotationMatrix_matrix : p.matrix.rotationMatrix = p.rotation.rotationMatrix := by
  have hcancel : ∀ {a s : ℝ}, 0 < s → a * s * (1 / s) = a := by
    intro a s hs
    rw [mul_assoc, mul_one_div_cancel hs.ne', mul_one]
  rw [Matrix4.rotationMatrix, scalePart_matrix, matrix_eq]
  simp only [Matrix4.toMatrix3, Matrix3.scaled, hcancel p.scale_x, hcancel p.scale_y, hcancel p.scale_z]

theorem rotationPart_matrix : p.matrix.rotationPart = p.rotation ∨ p.matrix.rotationPart = p.rotation.neg := by
  rw [Matrix4.rotationPart, rotationMatrix_matrix]
  exact fromRotationMatrix_rotationMatrix p.unit

end Placement

theorem Matrix4.decompose_eq (m : Matrix4 ℝ) : m.decompose = (m.position, m.rotationPart, m.scalePart) := rfl

theorem Matrix4.compose_neg (t : Vector3 ℝ) (q : Quaternion ℝ) (s : Vector3 ℝ) :
    compose t q.neg s = compose t q s := by
  have hparts : q.neg = ⟨-q.w, -q.x, -q.y, -q.z⟩ := rfl
  have hneg : q.neg.rotationMatrix4 = q.rotationMatrix4 := by
    simp only [hparts, Quaternion.rotationMatrix4, mul_neg, neg_mul, neg_neg]
  rw [compose, compose, hneg]

/-- What is taken out of a matrix makes it again. -/
theorem Placement.compose_matrix (p : Placement) :
    .compose p.matrix.position p.matrix.rotationPart p.matrix.scalePart = p.matrix := by
  rw [position_matrix, scalePart_matrix]
  rcases p.rotationPart_matrix with h | h
  · rw [h, matrix]
  · rw [h, Matrix4.compose_neg, matrix]

/-! ## Transforms -/

namespace Transform

/-- `Transform(matrix)` -/
noncomputable def ofMatrix (matrix : Matrix4 ℝ) : Transform ℝ where
  localPosition := matrix.position
  localOrientation := matrix.rotationPart
  localScale := matrix.scalePart
  localMatrix := matrix
  worldMatrix := matrix
  hasUpdated := false
  dirty := false

/-- `Transform(position)` -/
noncomputable def ofPosition (position : Vector3 ℝ) : Transform ℝ :=
  ({ new with localPosition := position } : Transform ℝ).setLocalPosition position

/-- The constructors, a matrix only if it is put together of the three. -/
inductive Construction where
  | default
  | matrix (p : Placement)
  | position (v : Vector3 ℝ)

noncomputable def construct : Construction → Transform ℝ
  | .default => new
  | .matrix p => ofMatrix p.matrix
  | .position v => ofPosition v

/-- The setters, and the getters that bring a matrix up to date. -/
inductive Call where
  | setWorldMatrix (mat : Matrix4 ℝ)
  | setLocalTransform (p : Placement)
  | setLocalPosition (v : Vector3 ℝ)
  | setLocalScale (v : Vector3 ℝ)
  | setLocalOrientation (q : Quaternion ℝ)
  | getWorldMatrix
  | getLocalMatrix

noncomputable def call (t : Transform ℝ) : Call → Transform ℝ
  | .setWorldMatrix mat => t.setWorldMatrix mat
  | .setLocalTransform p => t.setLocalTransform p.matrix
  | .setLocalPosition v => t.setLocalPosition v
  | .setLocalScale v => t.setLocalScale v
  | .setLocalOrientation q => t.setLocalOrientation q
  | .getWorldMatrix => t.getWorldMatrix.2
  | .getLocalMatrix => t.getLocalMatrix.2

/-- Of the position, the orientation and the scale as they are. -/
noncomputable def composition (t : Transform ℝ) : Matrix4 ℝ :=
  .compose t.localPosition t.localOrientation t.localScale

/-- A local matrix that is not marked as out of date is not. -/
def Current (t : Transform ℝ) : Prop := t.dirty = false → t.localMatrix = t.composition

variable {t : Transform ℝ}

theorem current_refresh (h : Current t) : Current t.refresh := by
  unfold refresh
  split
  · exact fun _ => rfl
  · exact h

theorem current_construct (c : Construction) : Current (construct c) := by
  cases c with
  | default =>
    intro _
    simp [construct, composition, new, Matrix4.compose, Matrix4.translation, Matrix4.scale, Quaternion.rotationMatrix4,
      Matrix4.mul_def, Matrix4.mul, Matrix4.one_def, Matrix4.identity]
  | matrix p => exact fun _ => p.compose_matrix.symm
  | position v => exact fun h => absurd h Bool.false_ne_true.symm

theorem current_call (h : Current t) (c : Call) : Current (t.call c) := by
  cases c with
  | setWorldMatrix mat => exact current_refresh h
  | setLocalTransform p => exact fun _ => p.compose_matrix.symm
  | setLocalPosition v => exact fun hclean => absurd hclean Bool.false_ne_true.symm
  | setLocalScale v => exact fun hclean => absurd hclean Bool.false_ne_true.symm
  | setLocalOrientation q => exact fun hclean => absurd hclean Bool.false_ne_true.symm
  | getWorldMatrix => exact current_refresh h
  | getLocalMatrix => exact current_refresh h

theorem current_foldl (calls : List Call) (h : Current t) : Current (calls.foldl call t) := by
  induction calls generalizing t with
  | nil => exact h
  | cons c calls ih => exact ih (current_call h c)

theorem getLocalMatrix_of_current (h : Current t) : t.getLocalMatrix.1 = t.composition := by
  unfold getLocalMatrix refresh
  dsimp only
  split
  · rfl
  · next hclean => exact h (Bool.not_eq_true _ ▸ hclean)

end Transform

/-- A matrix is taken apart into what it is made of, and so a transform always hands out the matrix of its
components. -/
theorem decompose_recovers :
    (∀ p : Placement,
      (p.matrix.decompose = (p.translation, p.rotation, p.scale) ∨
        p.matrix.decompose = (p.translation, p.rotation.neg, p.scale)) ∧
      p.matrix.position = p.translation ∧
      (p.matrix.rotationPart = p.rotation ∨ p.matrix.rotationPart = p.rotation.neg) ∧
      p.matrix.scalePart = p.scale) ∧
    ∀ (c : Transform.Construction) (calls : List Transform.Call),
      (calls.foldl Transform.call (Transform.construct c)).getLocalMatrix.1 =
        (calls.foldl Transform.call (Transform.construct c)).composition := by
  refine ⟨fun p => ⟨?_, p.position_matrix, p.rotationPart_matrix, p.scalePart_matrix⟩, fun c calls => ?_⟩
  · rw [Matrix4.decompose_eq, p.position_matrix, p.scalePart_matrix]
    exact p.rotationPart_matrix.imp (fun h => by rw [h]) fun h => by rw [h]
  · exact Transform.getLocalMatrix_of_current (Transform.current_foldl calls (Transform.current_construct c))

end Lumos.Maths
