import Lumos.Maths.ClipSpace
import Lumos.Maths.FrustumPlanes
import Lumos.Maths.FrustumTests
import Lumos.Maths.Inverses
import Lumos.Maths.Placement

/-!
# The planes of a projection

A frustum is defined from a projection by the corners of the normalised device box, taken back. A
point is in front of all six planes exactly where the clipping of the projected point, before it is
divided, keeps it. So what is in front of the planes of a camera is what the camera has in view.
-/
namespace Lumos.Maths

open FloatArithmetic FloatLiterals

/-! ## Four columns -/

/-- A position that is not divided by its `w` yet. -/
def Vector3.weighted (v : Vector3 ℝ) (w : ℝ) : Vector4 ℝ := ⟨v.x * w, v.y * w, v.z * w, w⟩

def Matrix4.ofColumns (a b c d : Vector4 ℝ) : Matrix4 ℝ :=
  ⟨a.x, b.x, c.x, d.x, a.y, b.y, c.y, d.y, a.z, b.z, c.z, d.z, a.w, b.w, c.w, d.w⟩

/-- On which side a position is that is not divided yet. -/
noncomputable def clipSide (a b c : Vector3 ℝ) (h : Vector4 ℝ) : ℝ :=
  ((b - a).crossProduct (c - a)).dotProduct (⟨h.x, h.y, h.z⟩ - a * h.w)

section Sides

variable {m n : Matrix4 ℝ} {a b c p : Vector3 ℝ} {h : Vector4 ℝ} {w : ℝ}

theorem clipSide_weighted (a b c p : Vector3 ℝ) (w : ℝ) : clipSide a b c (p.weighted w) = side a b c p * w := by
  simp only [clipSide, side, Vector3.weighted, Vector3.dotProduct_real, Vector3.crossProduct_x,
    Vector3.crossProduct_y, Vector3.crossProduct_z, Vector3.sub_x, Vector3.sub_y, Vector3.sub_z, Vector3.mul_x,
    Vector3.mul_y, Vector3.mul_z]
  ring

theorem det_ofColumns (a b c : Vector3 ℝ) (u v w : ℝ) (h : Vector4 ℝ) :
    (Matrix4.ofColumns (a.weighted u) (b.weighted v) (c.weighted w) h).toMatrix.det =
      -(clipSide a b c h * (u * v * w)) := by
  rw [Matrix4.det_toMatrix]
  simp only [Matrix4.ofColumns, clipSide, Vector3.weighted, Vector3.dotProduct_real, Vector3.crossProduct_x,
    Vector3.crossProduct_y, Vector3.crossProduct_z, Vector3.sub_x, Vector3.sub_y, Vector3.sub_z, Vector3.mul_x,
    Vector3.mul_y, Vector3.mul_z]
  ring

theorem product_ofColumns (n : Matrix4 ℝ) (a b c d : Vector4 ℝ) : n.product (.ofColumns a b c d) =
    .ofColumns (n.applyVector4 a) (n.applyVector4 b) (n.applyVector4 c) (n.applyVector4 d) := rfl

theorem applyVector4_weighted (hw : n.divisor a ≠ 0) :
    n.applyVector4 (a.weighted 1) = (n.apply a).weighted (n.divisor a) := by
  simp only [Matrix4.divisor] at hw
  simp only [Matrix4.applyVector4, Vector3.weighted, Matrix4.apply, Matrix4.divisor, Vector4.mk.injEq, mul_one, one_div]
  refine ⟨?_, ?_, ?_, trivial⟩ <;> rw [inv_mul_cancel_right₀ hw]

/-- Sides are multiplied by the determinant and by all the divisors. -/
theorem side_of_applyVector4 (ha : n.divisor a ≠ 0) (hb : n.divisor b ≠ 0) (hc : n.divisor c ≠ 0)
    (hp : n.applyVector4 h = p.weighted w) :
    side (n.apply a) (n.apply b) (n.apply c) p * w * (n.divisor a * n.divisor b * n.divisor c) =
      n.toMatrix.det * clipSide a b c h := by
  have hproduct := congrArg (fun m => m.toMatrix.det)
    (product_ofColumns n (a.weighted 1) (b.weighted 1) (c.weighted 1) h)
  simp only [Matrix4.toMatrix_product, Matrix.det_mul, applyVector4_weighted ha, applyVector4_weighted hb,
    applyVector4_weighted hc, hp, det_ofColumns, clipSide_weighted] at hproduct
  linarith

/-! ## Matrices and undivided positions -/

theorem applyVector4_product (m n : Matrix4 ℝ) (h : Vector4 ℝ) :
    (m.product n).applyVector4 h = m.applyVector4 (n.applyVector4 h) := by
  simp only [Matrix4.applyVector4, Matrix4.product, Vector4.mk.injEq]
  refine ⟨?_, ?_, ?_, ?_⟩ <;> ring

theorem applyVector4_initial (h : Vector4 ℝ) : (Matrix4.initial : Matrix4 ℝ).applyVector4 h = h := by
  cases h
  simp [Matrix4.applyVector4, Matrix4.initial]

theorem inverse_applyVector4 (hdet : m.toMatrix.det ≠ 0) (h : Vector4 ℝ) :
    m.inverse.applyVector4 (m.applyVector4 h) = h := by
  rw [← applyVector4_product, m.inverse_product hdet, applyVector4_initial]

theorem det_inverse_ne (hdet : m.toMatrix.det ≠ 0) : m.inverse.toMatrix.det ≠ 0 := by
  have hone := congrArg (fun m => m.toMatrix.det) (m.inverse_product hdet)
  simp only [Matrix4.toMatrix_product, Matrix.det_mul, Matrix4.toMatrix_initial, Matrix.det_one] at hone
  exact left_ne_zero_of_mul_eq_one hone

/-- A point that was divided by `w` is divided by its inverse on the way back. -/
theorem inverse_divisor (hdet : m.toMatrix.det ≠ 0) (hp : m.applyVector4 (p.weighted 1) = c.weighted w) :
    m.inverse.divisor c * w = 1 := by
  have hback := congrArg Vector4.w (inverse_applyVector4 hdet (p.weighted 1))
  rw [hp] at hback
  simp only [Matrix4.applyVector4, Vector3.weighted] at hback
  rw [Matrix4.divisor, ← hback]
  ring

end Sides

/-! ## Clipping -/

namespace ClipControl

/-- What clipping keeps of the positions that are not divided yet. -/
structure Keeps (clip : ClipControl) (h : Vector4 ℝ) : Prop where
  x : -h.w ≤ h.x ∧ h.x ≤ h.w
  y : -h.w ≤ h.y ∧ h.y ≤ h.w
  z : clip.minDepth * h.w ≤ h.z ∧ h.z ≤ h.w

/-- The normalised device box, as a box. -/
noncomputable def deviceBox (clip : ClipControl) : BoundingBox ℝ := ⟨⟨-1, -1, clip.minDepth⟩, ⟨1, 1, 1⟩⟩

theorem solid_deviceBox (clip : ClipControl) : clip.deviceBox.Solid :=
  ⟨neg_lt_self one_pos, neg_lt_self one_pos, minDepth_lt_one clip⟩

theorem mem_box_of_corner {clip : ClipControl} {corner : Vector3 ℝ} (h : corner ∈ clip.deviceBox.frustumCorners) :
    corner ∈ clip.box := by
  obtain ⟨hx, hy, hz⟩ := BoundingBox.holds_corner clip.solid_deviceBox h
  exact ⟨hx.1, hx.2, hy.1, hy.2, hz.1, hz.2⟩

theorem corner_of_face {box : BoundingBox ℝ} {face : Vector3 ℝ × Vector3 ℝ × Vector3 ℝ} (h : face ∈ box.faces) :
    face.1 ∈ box.frustumCorners ∧ face.2.1 ∈ box.frustumCorners ∧ face.2.2 ∈ box.frustumCorners := by
  simp only [BoundingBox.faces, List.mem_cons, List.not_mem_nil, or_false] at h
  rcases h with rfl | rfl | rfl | rfl | rfl | rfl <;> simp [BoundingBox.frustumCorners]

/-- Each of the faces is one of the limits. -/
theorem clipSide_nonneg_iff (clip : ClipControl) (h : Vector4 ℝ) :
    (∀ face ∈ clip.deviceBox.faces, 0 ≤ clipSide face.1 face.2.1 face.2.2 h) ↔ clip.Keeps h := by
  have hdepth : 0 < 2 * (1 - clip.minDepth) := mul_pos two_pos (sub_pos.mpr (minDepth_lt_one clip))
  have hlimit : ∀ {s e t : ℝ}, 0 < s → e = s * t → (0 ≤ e ↔ 0 ≤ t) := by
    rintro s e t hs rfl
    exact mul_nonneg_iff_of_pos_left hs
  simp only [BoundingBox.faces, List.forall_mem_cons, List.not_mem_nil, false_implies, implies_true, and_true,
    deviceBox, clipSide, Vector3.dotProduct_real, Vector3.crossProduct_x, Vector3.crossProduct_y,
    Vector3.crossProduct_z, Vector3.sub_x, Vector3.sub_y, Vector3.sub_z, Vector3.mul_x, Vector3.mul_y, Vector3.mul_z]
  refine (and_congr (@hlimit 4 _ (h.z - clip.minDepth * h.w) four_pos (by ring)) (and_congr
    (@hlimit _ _ (h.x + h.w) hdepth (by ring)) (and_congr (@hlimit _ _ (h.w - h.x) hdepth (by ring)) (and_congr
    (@hlimit _ _ (h.w - h.y) hdepth (by ring)) (and_congr (@hlimit _ _ (h.y + h.w) hdepth (by ring))
    (@hlimit 4 _ (h.w - h.z) four_pos (by ring))))))).trans ?_
  constructor
  · rintro ⟨hnear, hleft, hright, hup, hdown, hfar⟩
    exact ⟨⟨by linarith, by linarith⟩, ⟨by linarith, by linarith⟩, by linarith, by linarith⟩
  · rintro ⟨⟨hleft, hright⟩, ⟨hdown, hup⟩, hnear, hfar⟩
    exact ⟨by linarith, by linarith, by linarith, by linarith, by linarith, by linarith⟩

end ClipControl

namespace Frustum

section Define

variable {clip : ClipControl} {m n : Matrix4 ℝ}

/-- The plane through three projected corners. -/
noncomputable def projectedPlane (n : Matrix4 ℝ) (face : Vector3 ℝ × Vector3 ℝ × Vector3 ℝ) : Plane ℝ :=
  Plane.define (n.apply face.1) (n.apply face.2.1) (n.apply face.2.2)

theorem absStored_define (v0 v1 v2 : Vector3 ℝ) : AbsStored (Plane.define v0 v1 v2) := rfl

theorem absStored_flip {plane : Plane ℝ} (h : AbsStored plane) : AbsStored plane.flip := by
  rw [AbsStored] at h ⊢
  simp only [Plane.flip, h, Vector3.neg_x, Vector3.neg_y, Vector3.neg_z, abs_neg]

/-- Flipping is of all planes or of none. -/
theorem planes_define (clip : ClipControl) (m : Matrix4 ℝ) : (define clip m).planes =
    if lt ((projectedPlane m.inverse
      (⟨-1, -1, clip.minDepth⟩, ⟨1, -1, clip.minDepth⟩, ⟨1, 1, clip.minDepth⟩)).distance
        (m.inverse.apply ⟨1, -1, 1⟩)) 0
    then (clip.deviceBox.faces.map (projectedPlane m.inverse)).map Plane.flip
    else clip.deviceBox.faces.map (projectedPlane m.inverse) := rfl

theorem absStored_planes_define (clip : ClipControl) (m : Matrix4 ℝ) :
    ∀ plane ∈ (define clip m).planes, AbsStored plane := by
  intro plane hplane
  rw [planes_define] at hplane
  split at hplane
  · obtain ⟨_, hmem, rfl⟩ := List.mem_map.mp hplane
    obtain ⟨face, -, rfl⟩ := List.mem_map.mp hmem
    exact absStored_flip (absStored_define _ _ _)
  · obtain ⟨face, -, rfl⟩ := List.mem_map.mp hplane
    exact absStored_define _ _ _

/-- Distances from the planes are sides of the faces, up to the sign of the determinant. -/
theorem exists_distance_projectedPlane {face : Vector3 ℝ × Vector3 ℝ × Vector3 ℝ}
    (hface : face ∈ clip.deviceBox.faces) (hcorners : ∀ corner ∈ clip.deviceBox.frustumCorners, 0 < n.divisor corner) :
    ∃ s : ℝ, 0 < s ∧ ∀ h p w, n.applyVector4 h = p.weighted w →
      (projectedPlane n face).distance p * w = s * (n.toMatrix.det * clipSide face.1 face.2.1 face.2.2 h) := by
  obtain ⟨ha, hb, hc⟩ := ClipControl.corner_of_face hface
  have ha := hcorners _ ha
  have hb := hcorners _ hb
  have hc := hcorners _ hc
  obtain ⟨s, hs, hdistance⟩ := exists_distance (n.apply face.1) (n.apply face.2.1) (n.apply face.2.2)
  have hpos := mul_pos (mul_pos ha hb) hc
  refine ⟨s / (n.divisor face.1 * n.divisor face.2.1 * n.divisor face.2.2), div_pos hs hpos, fun h p w hp => ?_⟩
  rw [projectedPlane, hdistance, ← side_of_applyVector4 ha.ne' hb.ne' hc.ne' hp]
  field_simp

/-- The planes are flipped for a negative determinant. -/
theorem flipped_define_iff (hcorners : ∀ corner ∈ clip.deviceBox.frustumCorners, 0 < n.divisor corner) :
    lt ((projectedPlane n (⟨-1, -1, clip.minDepth⟩, ⟨1, -1, clip.minDepth⟩, ⟨1, 1, clip.minDepth⟩)).distance
      (n.apply ⟨1, -1, 1⟩)) 0 = true ↔ n.toMatrix.det < 0 := by
  have hface : ((⟨-1, -1, clip.minDepth⟩, ⟨1, -1, clip.minDepth⟩, ⟨1, 1, clip.minDepth⟩) :
      Vector3 ℝ × Vector3 ℝ × Vector3 ℝ) ∈ clip.deviceBox.faces := List.mem_cons_self
  obtain ⟨s, hs, hdistance⟩ := exists_distance_projectedPlane hface hcorners
  have hcorner := hcorners ⟨1, -1, 1⟩ (by simp [BoundingBox.frustumCorners, ClipControl.deviceBox])
  have hdist := hdistance _ _ _ (applyVector4_weighted hcorner.ne')
  have hnear := BoundingBox.side_near_pos clip.solid_deviceBox
  simp only [ClipControl.deviceBox] at hnear
  rw [clipSide_weighted, mul_one] at hdist
  rw [lt_real]
  constructor
  · intro hlt
    have hproduct := mul_neg_of_neg_of_pos hlt hcorner
    rw [hdist] at hproduct
    exact neg_of_mul_neg_left (neg_of_mul_neg_right hproduct hs.le) hnear.le
  · intro hdet
    refine neg_of_mul_neg_left ?_ hcorner.le
    rw [hdist]
    exact mul_neg_of_pos_of_neg hs (mul_neg_of_neg_of_pos hdet hnear)

/-- A point is in front of the planes where its projection is kept. -/
theorem front_define_iff (hdet : m.toMatrix.det ≠ 0)
    (hcorners : ∀ corner ∈ clip.deviceBox.frustumCorners, 0 < m.inverse.divisor corner) (p : Vector3 ℝ) :
    (∀ plane ∈ (define clip m).planes, 0 ≤ plane.distance p) ↔ clip.Keeps (m.applyVector4 (p.weighted 1)) := by
  have hne := det_inverse_ne hdet
  have hback := inverse_applyVector4 hdet (p.weighted 1)
  rw [← ClipControl.clipSide_nonneg_iff, planes_define]
  by_cases hneg : m.inverse.toMatrix.det < 0
  · rw [if_pos ((flipped_define_iff hcorners).mpr hneg)]
    simp only [List.forall_mem_map]
    refine forall₂_congr fun face hface => ?_
    obtain ⟨s, hs, hdistance⟩ := exists_distance_projectedPlane hface hcorners
    have hdist := hdistance _ _ _ hback
    rw [mul_one] at hdist
    rw [Plane.distance_flip, hdist, neg_mul_eq_mul_neg, mul_nonneg_iff_of_pos_left hs, ← neg_mul,
      mul_nonneg_iff_of_pos_left (neg_pos.mpr hneg)]
  · have hpos := lt_of_le_of_ne (not_lt.mp hneg) hne.symm
    rw [if_neg (mt (flipped_define_iff hcorners).mp hneg)]
    simp only [List.forall_mem_map]
    refine forall₂_congr fun face hface => ?_
    obtain ⟨s, hs, hdistance⟩ := exists_distance_projectedPlane hface hcorners
    have hdist := hdistance _ _ _ hback
    rw [mul_one] at hdist
    rw [hdist, mul_nonneg_iff_of_pos_left hs, mul_nonneg_iff_of_pos_left hpos]

end Define

end Frustum

/-! ## What is in view -/

/-- A projection takes what is in view onto the device box, and divides it by positive numbers. -/
structure Shows (clip : ClipControl) (m : Matrix4 ℝ) (view : View) : Prop where
  det_ne : m.toMatrix.det ≠ 0
  onto : m.apply '' view.region clip = clip.box
  divisor_pos : ∀ p ∈ view.region clip, 0 < m.divisor p

section Views

variable {clip : ClipControl} {m : Matrix4 ℝ} {view : View} {p : Vector3 ℝ} {w : ℝ}

theorem keeps_weighted_iff (hw : 0 < w) : clip.Keeps (p.weighted w) ↔ p ∈ clip.box := by
  have hlower : ∀ low x : ℝ, low * w ≤ x * w ↔ low ≤ x := fun low x => mul_le_mul_iff_left₀ hw
  have hupper : ∀ x : ℝ, x * w ≤ w ↔ x ≤ 1 := fun x => mul_le_iff_le_one_left hw
  constructor
  · rintro ⟨⟨hleft, hright⟩, ⟨hdown, hup⟩, hnear, hfar⟩
    simp only [Vector3.weighted, ← neg_one_mul w, hlower, hupper] at hleft hright hdown hup hnear hfar
    exact ⟨hleft, hright, hdown, hup, hnear, hfar⟩
  · rintro ⟨hleft, hright, hdown, hup, hnear, hfar⟩
    constructor
    · simpa only [Vector3.weighted, ← neg_one_mul w, hlower, hupper] using ⟨hleft, hright⟩
    · simpa only [Vector3.weighted, ← neg_one_mul w, hlower, hupper] using ⟨hdown, hup⟩
    · simpa only [Vector3.weighted, hlower, hupper] using ⟨hnear, hfar⟩

theorem applyVector4_injective (hdet : m.toMatrix.det ≠ 0) : Function.Injective m.applyVector4 :=
  Function.LeftInverse.injective (inverse_applyVector4 hdet)

/-- Different points are not taken to one. -/
theorem eq_of_apply_eq {q : Vector3 ℝ} (hdet : m.toMatrix.det ≠ 0) (hp : m.divisor p ≠ 0) (hq : m.divisor q ≠ 0)
    (h : m.apply p = m.apply q) : p = q := by
  have hline : m.applyVector4 (p.weighted (m.divisor q)) = m.applyVector4 (q.weighted (m.divisor p)) := by
    have hleft := applyVector4_weighted hp
    have hright := applyVector4_weighted hq
    rw [h] at hleft
    simp only [Matrix4.applyVector4, Vector3.weighted, Vector4.mk.injEq, mul_one] at hleft hright ⊢
    obtain ⟨hpx, hpy, hpz, hpw⟩ := hleft
    obtain ⟨hqx, hqy, hqz, hqw⟩ := hright
    refine ⟨?_, ?_, ?_, ?_⟩
    · linear_combination m.divisor q * hpx - m.divisor p * hqx
    · linear_combination m.divisor q * hpy - m.divisor p * hqy
    · linear_combination m.divisor q * hpz - m.divisor p * hqz
    · linear_combination m.divisor q * hpw - m.divisor p * hqw
  have hsame := applyVector4_injective hdet hline
  simp only [Vector3.weighted, Vector4.mk.injEq] at hsame
  obtain ⟨hx, hy, hz, hw⟩ := hsame
  rw [hw] at hx hy hz
  ext
  · exact mul_right_cancel₀ hp hx
  · exact mul_right_cancel₀ hp hy
  · exact mul_right_cancel₀ hp hz

theorem divisor_eq_w (m : Matrix4 ℝ) (p : Vector3 ℝ) : m.divisor p = (m.applyVector4 (p.weighted 1)).w := by
  simp only [Matrix4.divisor, Matrix4.applyVector4, Vector3.weighted, mul_one]

/-- What is kept is divided by something: where it is not, no more than the origin would be kept. -/
theorem divisor_pos_of_keeps (hdet : m.toMatrix.det ≠ 0) (hkeeps : clip.Keeps (m.applyVector4 (p.weighted 1))) :
    0 < m.divisor p := by
  obtain ⟨⟨hleft, hright⟩, ⟨hdown, hup⟩, hnear, hfar⟩ := hkeeps
  have hnonneg : 0 ≤ m.divisor p := by
    have hboth := hleft.trans hright
    rw [divisor_eq_w]
    linarith
  refine hnonneg.lt_of_ne fun hzero => ?_
  have hw : (m.applyVector4 (p.weighted 1)).w = 0 := (hzero.trans (divisor_eq_w m p)).symm
  rw [hw, neg_zero] at hleft hdown
  rw [hw] at hright hup hfar
  rw [hw, mul_zero] at hnear
  have horigin : m.applyVector4 (p.weighted 1) = m.applyVector4 ⟨0, 0, 0, 0⟩ := by
    have hpoint : m.applyVector4 ⟨0, 0, 0, 0⟩ = ⟨0, 0, 0, 0⟩ := by simp [Matrix4.applyVector4]
    rw [hpoint]
    rcases hm : m.applyVector4 (p.weighted 1) with ⟨x, y, z, w⟩
    rw [hm] at hleft hright hdown hup hnear hfar hw
    exact congr (congr (congr (congrArg Vector4.mk (le_antisymm hright hleft)) (le_antisymm hup hdown))
      (le_antisymm hfar hnear)) hw
  exact one_ne_zero (congrArg Vector4.w (applyVector4_injective hdet horigin))

/-- Before anything is divided, what is kept is what is in view. -/
theorem Shows.keeps_iff (h : Shows clip m view) :
    clip.Keeps (m.applyVector4 (p.weighted 1)) ↔ p ∈ view.region clip := by
  constructor
  · intro hkeeps
    have hpos := divisor_pos_of_keeps h.det_ne hkeeps
    rw [applyVector4_weighted hpos.ne', keeps_weighted_iff hpos, ← h.onto] at hkeeps
    obtain ⟨q, hq, hpq⟩ := hkeeps
    exact eq_of_apply_eq h.det_ne (h.divisor_pos q hq).ne' hpos.ne' hpq ▸ hq
  · intro hp
    have hpos := h.divisor_pos p hp
    rw [applyVector4_weighted hpos.ne', keeps_weighted_iff hpos, ← h.onto]
    exact Set.mem_image_of_mem _ hp

/-! ## Viewers -/

variable {world : Matrix3x4 ℝ}

theorem toMatrix4_applyVector4 (n : Matrix3x4 ℝ) (p : Vector3 ℝ) :
    n.toMatrix4.applyVector4 (p.weighted 1) = (n.apply p).weighted 1 := by
  simp only [Matrix4.applyVector4, Matrix3x4.toMatrix4, Vector3.weighted, Matrix3x4.apply, mul_one, zero_mul, add_zero,
    zero_add]

theorem weighted_one_injective : Function.Injective fun p : Vector3 ℝ => p.weighted 1 := by
  intro p q h
  simp only [Vector3.weighted, mul_one, Vector4.mk.injEq, and_true] at h
  exact Vector3.ext h.1 h.2.1 h.2.2

/-- The viewer's matrix and its inverse cancel out. -/
theorem inverse_apply_apply (hworld : world.toMatrix3.toMatrix.det ≠ 0) (p : Vector3 ℝ) :
    world.inverse.apply (world.apply p) = p ∧ world.apply (world.inverse.apply p) = p := by
  have hdet : world.toMatrix4.toMatrix.det ≠ 0 := by rwa [world.det_toMatrix4]
  constructor
  · apply weighted_one_injective
    change (world.inverse.apply (world.apply p)).weighted 1 = p.weighted 1
    rw [← toMatrix4_applyVector4, ← toMatrix4_applyVector4, ← world.inverse_toMatrix4 hworld,
      inverse_applyVector4 hdet]
  · apply weighted_one_injective
    change (world.apply (world.inverse.apply p)).weighted 1 = p.weighted 1
    rw [← toMatrix4_applyVector4, ← toMatrix4_applyVector4, ← world.inverse_toMatrix4 hworld, ← applyVector4_product,
      Matrix4.product_inverse _ hdet, applyVector4_initial]

/-- What is in front of all six planes is what the viewer has in view, from where the viewer is. -/
theorem Shows.front_eq (h : Shows clip m view) (hworld : world.toMatrix3.toMatrix.det ≠ 0) :
    {p | ∀ plane ∈ (Frustum.define clip (m.product world.toMatrix4.inverse)).planes, 0 ≤ plane.distance p} =
      world.apply '' view.region clip := by
  have hmatrix := world.inverse_toMatrix4 hworld
  have hview : world.toMatrix4.inverse.toMatrix.det ≠ 0 := det_inverse_ne (by rwa [world.det_toMatrix4])
  have hdet : (m.product world.toMatrix4.inverse).toMatrix.det ≠ 0 := by
    rw [Matrix4.toMatrix_product, Matrix.det_mul]
    exact mul_ne_zero h.det_ne hview
  have hproduct : ∀ p, (m.product world.toMatrix4.inverse).applyVector4 (p.weighted 1) =
      m.applyVector4 ((world.inverse.apply p).weighted 1) := by
    intro p
    rw [applyVector4_product, hmatrix, toMatrix4_applyVector4]
  have hcorners : ∀ corner ∈ clip.deviceBox.frustumCorners,
      0 < (m.product world.toMatrix4.inverse).inverse.divisor corner := by
    intro corner hcorner
    obtain ⟨q, hq, rfl⟩ := h.onto.symm.subset (ClipControl.mem_box_of_corner hcorner)
    have hpos := h.divisor_pos q hq
    have hdivided : (m.product world.toMatrix4.inverse).applyVector4 ((world.apply q).weighted 1) =
        (m.apply q).weighted (m.divisor q) := by
      rw [hproduct, (inverse_apply_apply hworld q).1, applyVector4_weighted hpos.ne']
    exact pos_of_mul_pos_left ((inverse_divisor hdet hdivided).symm ▸ one_pos) hpos.le
  ext p
  rw [Set.mem_ofPred_eq, Frustum.front_define_iff hdet hcorners, hproduct, h.keeps_iff]
  constructor
  · exact fun hp => ⟨_, hp, (inverse_apply_apply hworld p).2⟩
  · rintro ⟨q, hq, rfl⟩
    rwa [(inverse_apply_apply hworld q).1]

/-- A box with a point in view is never taken to be outside. -/
theorem Shows.isInsideFast_ne (h : Shows clip m view) (hworld : world.toMatrix3.toMatrix.det ≠ 0)
    {box : BoundingBox ℝ} (hbox : box.Holds p) (hp : p ∈ world.apply '' view.region clip) :
    (Frustum.define clip (m.product world.toMatrix4.inverse)).isInsideFast box ≠ .outside := by
  intro houtside
  obtain ⟨hsound, -, hfast⟩ := Frustum.isInside_sound (Frustum.absStored_planes_define clip _) box
  rw [← h.front_eq hworld] at hp
  exact hsound (hfast.mp houtside) p hbox hp

end Views

/-! ## The two projections -/

theorem det_perspectiveMatrix_ne_zero {h aspect m11 m23 : ℝ} (hh : h ≠ 0) (haspect : aspect ≠ 0) (h11 : m11 ≠ 0)
    (h23 : m23 ≠ 0) (m22 : ℝ) : (Matrix4.perspectiveMatrix h aspect m11 m22 m23 (-1) 0 0).toMatrix.det ≠ 0 := by
  have hvalue := mul_ne_zero (mul_ne_zero (div_ne_zero hh haspect) h11) h23
  rw [Matrix4.det_toMatrix]
  simp only [Matrix4.perspectiveMatrix]
  ring_nf at hvalue ⊢
  exact hvalue

theorem ViewFrustum.shows (frustum : ViewFrustum) {clip : ClipControl} (hclip : clip = .RH_ZO ∨ clip = .RH_NO) :
    Shows clip (frustum.projection clip) frustum.view := by
  have hnear := frustum.near_pos
  have hfar := hnear.trans frustum.near_lt_far
  have hdepth := (sub_neg.mpr frustum.near_lt_far).ne
  have hslope := frustum.slope_pos.ne'
  have haspect := frustum.aspect_pos.ne'
  have htwo : (two : ℝ) = 2 := rfl
  refine ⟨?_, (frustum.projected_iff.mpr hclip).onto, ?_⟩
  · have hh := one_div_ne_zero hslope
    have hproduct := mul_ne_zero (mul_ne_zero hnear.ne' hfar.ne') (one_div_ne_zero hdepth)
    rcases hclip with rfl | rfl
    · exact det_perspectiveMatrix_ne_zero hh haspect (neg_ne_zero.mpr hh) hproduct _
    · refine det_perspectiveMatrix_ne_zero hh haspect hh ?_ _
      rw [htwo, mul_assoc]
      exact mul_ne_zero two_ne_zero hproduct
  · rintro ⟨x, y, z⟩ ⟨d, hd, -, -, -, -, -, rfl⟩
    have hpos : 0 < d := hnear.trans_le hd
    rcases hclip with rfl | rfl
    · rw [projection, Matrix4.perspective, Matrix4.perspectiveRH_ZO, divisor_perspectiveMatrix]
      simpa [ClipControl.depth] using hpos
    · rw [projection, Matrix4.perspective, Matrix4.perspectiveRH_NO, divisor_perspectiveMatrix]
      simpa [ClipControl.depth] using hpos

section Straight

variable {clip : ClipControl} {near far left right bottom top : ℝ}

/-- The same limits at all distances. -/
def straightView (near far left right bottom top : ℝ) (hdepth : near < far) (hacross : left < right)
    (hup : bottom < top) : View where
  near := near
  far := far
  left := fun _ => left
  right := fun _ => right
  bottom := fun _ => bottom
  top := fun _ => top
  near_lt_far := hdepth
  left_lt_right := fun _ _ => hacross
  bottom_lt_top := fun _ _ => hup

theorem det_orthographicMatrix_ne_zero (hdepth : near < far) (hacross : left < right) (hup : bottom < top) {m11 m22 : ℝ}
    (h11 : m11 ≠ 0) (h22 : m22 ≠ 0) (m23 : ℝ) :
    (Matrix4.orthographicMatrix near far 0 0 1 left right bottom top m11 m22 m23).toMatrix.det ≠ 0 := by
  have htwo : (two : ℝ) = 2 := rfl
  have hx := one_div_ne_zero (sub_pos.mpr hacross).ne'
  have hy := one_div_ne_zero (sub_pos.mpr hup).ne'
  have hz := one_div_ne_zero (sub_pos.mpr hdepth).ne'
  have hvalue := mul_ne_zero (mul_ne_zero (mul_ne_zero two_ne_zero hx) (mul_ne_zero h11 hy)) (mul_ne_zero h22 hz)
  rw [Matrix4.det_toMatrix]
  simp only [Matrix4.orthographicMatrix, htwo]
  ring_nf at hvalue ⊢
  exact hvalue

/-- A viewer who sees behind is one who stands further back. -/
theorem shows_straightView (hdepth : near < far) (hacross : left < right) (hup : bottom < top)
    (hclip : clip = .RH_NO ∨ clip = .LH_NO ∨ clip = .RH_ZO ∧ bottom = -top) :
    Shows clip (.orthographic near far 0 0 1 left right bottom top clip)
      (straightView near far left right bottom top hdepth hacross hup) := by
  have htwo : (two : ℝ) = 2 := rfl
  let back : ViewBox := ⟨left, right, bottom, top, 1, 1 + (far - near), hacross, hup, one_pos, by linarith⟩
  refine ⟨?_, ?_, ?_⟩
  · rcases hclip with rfl | rfl | ⟨rfl, -⟩
    · exact det_orthographicMatrix_ne_zero hdepth hacross hup two_ne_zero (neg_ne_zero.mpr two_ne_zero) _
    · exact det_orthographicMatrix_ne_zero hdepth hacross hup two_ne_zero two_ne_zero _
    · exact det_orthographicMatrix_ne_zero hdepth hacross hup (neg_ne_zero.mpr two_ne_zero) (neg_ne_zero.mpr one_ne_zero) _
  · rw [← (back.projected_iff.mpr hclip).onto]
    have hshift : ∀ x y d,
        (Matrix4.orthographic near far 0 0 1 left right bottom top clip).apply ⟨x, y, clip.depth d⟩ =
          (back.projection clip).apply ⟨x, y, clip.depth (d + (1 - near))⟩ := by
      intro x y d
      rcases hclip with rfl | rfl | ⟨rfl, -⟩ <;>
        simp only [ViewBox.projection, Matrix4.orthographic, Matrix4.orthographicRH_NO, Matrix4.orthographicLH_NO,
          Matrix4.orthographicRH_ZO, Matrix4.orthographicMatrix, Matrix4.apply, ClipControl.depth, back, htwo,
          Vector3.mk.injEq] <;> refine ⟨?_, ?_, ?_⟩ <;> ring
    ext p
    constructor
    · rintro ⟨⟨x, y, z⟩, ⟨d, hnear, hfar, hlimits⟩, rfl⟩
      obtain ⟨hleft, hright, hbottom, htop, rfl⟩ := hlimits
      refine ⟨⟨x, y, clip.depth (d + (1 - near))⟩, ⟨d + (1 - near), ?_, ?_, hleft, hright, hbottom, htop, rfl⟩,
        (hshift x y d).symm⟩
      · change near ≤ d at hnear
        change 1 ≤ d + (1 - near)
        linarith
      · change d ≤ far at hfar
        change d + (1 - near) ≤ 1 + (far - near)
        linarith
    · rintro ⟨⟨x, y, z⟩, ⟨d, hnear, hfar, hlimits⟩, rfl⟩
      obtain ⟨hleft, hright, hbottom, htop, rfl⟩ := hlimits
      refine ⟨⟨x, y, clip.depth (d - (1 - near))⟩, ⟨d - (1 - near), ?_, ?_, hleft, hright, hbottom, htop, rfl⟩, ?_⟩
      · change 1 ≤ d at hnear
        change near ≤ d - (1 - near)
        linarith
      · change d ≤ 1 + (far - near) at hfar
        change d - (1 - near) ≤ far
        linarith
      · rw [hshift, sub_add_cancel]
  · rintro ⟨x, y, z⟩ -
    rcases hclip with rfl | rfl | ⟨rfl, -⟩ <;>
      simp [Matrix4.divisor, Matrix4.orthographic, Matrix4.orthographicRH_NO, Matrix4.orthographicLH_NO,
        Matrix4.orthographicRH_ZO, Matrix4.orthographicMatrix]

end Straight

end Lumos.Maths
