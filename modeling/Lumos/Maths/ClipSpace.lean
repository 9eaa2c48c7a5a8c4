import Lumos.Maths.ExactArithmetic
import Lumos.Maths.Projection

/-!
# Projections onto the normalised device box

What is in view is, at each distance from the viewer, between two limits to the sides and two limits
up and down. A projection takes the limits to those of the box, the near end to its least depth and
the far end to one.
-/
namespace Lumos.Maths

open FloatArithmetic FloatLiterals

/-- `SetUpCoordSystem` -/
def setUpCoordSystem (leftHanded forceZeroToOne : Bool) : ClipControl :=
  if forceZeroToOne then
    if leftHanded then .LH_ZO else .RH_ZO
  else if leftHanded then .LH_NO else .RH_NO

namespace Matrix4

variable {K : Type} [FloatLiterals K]

/-- What `Perspective` divides by. -/
def perspectiveDivisors (tan : K → K) (znear zfar aspect fov : K) (clip : ClipControl) : List K :=
  let depth := match clip with
    | .LH_NO => zfar - zfar
    | .LH_ZO | .RH_ZO | .RH_NO => znear - zfar
  [tan (fov * degToRad * literal (1 / 2)), depth, aspect]

/-- What `Orthographic` divides by. -/
def orthographicDivisors (znear zfar left right bottom top : K) : List K := [right - left, top - bottom, zfar - znear]

/-- The `w` that a position is divided by. -/
def divisor (m : Matrix4 K) (v : Vector3 K) : K := m.m30 * v.x + m.m31 * v.y + m.m32 * v.z + m.m33

end Matrix4

/-! ## Views -/

/-- The limits of what is in view, at each distance. -/
structure View where
  near : ℝ
  far : ℝ
  left : ℝ → ℝ
  right : ℝ → ℝ
  bottom : ℝ → ℝ
  top : ℝ → ℝ
  near_lt_far : near < far
  left_lt_right : ∀ d, near ≤ d → left d < right d
  bottom_lt_top : ∀ d, near ≤ d → bottom d < top d

/-- Where points at a distance are: a viewer in a left-handed system looks along the axis, and in a right-handed
one against it. -/
def ClipControl.depth : ClipControl → ℝ → ℝ
  | .LH_ZO, d | .LH_NO, d => d
  | .RH_ZO, d | .RH_NO, d => -d

/-- The depth that the near end goes to. -/
noncomputable def ClipControl.minDepth (clip : ClipControl) : ℝ := if clip.isDepthZeroOne then 0 else -1

def View.region (view : View) (clip : ClipControl) : Set (Vector3 ℝ) :=
  {p | ∃ d, view.near ≤ d ∧ d ≤ view.far ∧ view.left d ≤ p.x ∧ p.x ≤ view.right d ∧ view.bottom d ≤ p.y ∧
    p.y ≤ view.top d ∧ p.z = clip.depth d}

/-- The normalised device box. -/
def ClipControl.box (clip : ClipControl) : Set (Vector3 ℝ) :=
  {p | -1 ≤ p.x ∧ p.x ≤ 1 ∧ -1 ≤ p.y ∧ p.y ≤ 1 ∧ clip.minDepth ≤ p.z ∧ p.z ≤ 1}

/-- What is in view goes onto the box, with the limits of the one to those of the other. -/
structure Projects (clip : ClipControl) (m : Matrix4 ℝ) (divisors : List ℝ) (view : View) : Prop where
  divisors_ne : ∀ x ∈ divisors, x ≠ 0
  w_ne : ∀ p ∈ view.region clip, m.divisor p ≠ 0
  left : ∀ d y, view.near ≤ d → d ≤ view.far → (m.apply ⟨view.left d, y, clip.depth d⟩).x = -1
  right : ∀ d y, view.near ≤ d → d ≤ view.far → (m.apply ⟨view.right d, y, clip.depth d⟩).x = 1
  ends : (∀ d x, view.near ≤ d → d ≤ view.far → (m.apply ⟨x, view.bottom d, clip.depth d⟩).y = -1 ∧
      (m.apply ⟨x, view.top d, clip.depth d⟩).y = 1) ∨
    ∀ d x, view.near ≤ d → d ≤ view.far → (m.apply ⟨x, view.bottom d, clip.depth d⟩).y = 1 ∧
      (m.apply ⟨x, view.top d, clip.depth d⟩).y = -1
  near : ∀ x y, (m.apply ⟨x, y, clip.depth view.near⟩).z = clip.minDepth
  far : ∀ x y, (m.apply ⟨x, y, clip.depth view.far⟩).z = 1
  onto : m.apply '' view.region clip = clip.box

/-- How far something is from the lower to the upper limit, from -1 to 1. -/
noncomputable def across (lower upper x : ℝ) : ℝ := (x - lower + (x - upper)) / (upper - lower)

/-- A projection in its parts: across the view, up it or down it, and away from the viewer, where `share` says how
much of the depth a distance comes to. -/
structure Normalises (clip : ClipControl) (m : Matrix4 ℝ) (view : View) (share : ℝ → ℝ) (sign : ℝ) : Prop where
  sign_eq : sign = 1 ∨ sign = -1
  near : share view.near = 0
  far : share view.far = 1
  between : ∀ d, view.near ≤ d → d ≤ view.far → 0 ≤ share d ∧ share d ≤ 1
  reaches : ∀ u, 0 ≤ u → u ≤ 1 → ∃ d, view.near ≤ d ∧ d ≤ view.far ∧ share d = u
  apply_eq : ∀ d x y, view.near ≤ d → d ≤ view.far → m.divisor ⟨x, y, clip.depth d⟩ ≠ 0 ∧
    m.apply ⟨x, y, clip.depth d⟩ = ⟨across (view.left d) (view.right d) x,
      sign * across (view.bottom d) (view.top d) y, clip.minDepth + (1 - clip.minDepth) * share d⟩

section Views

variable {clip : ClipControl} {m : Matrix4 ℝ} {view : View} {share : ℝ → ℝ} {sign lower upper x u : ℝ}

theorem across_lower (h : lower < upper) : across lower upper lower = -1 := by
  have hne : upper - lower ≠ 0 := (sub_pos.mpr h).ne'
  rw [across, div_eq_iff hne]
  ring

theorem across_upper (h : lower < upper) : across lower upper upper = 1 := by
  have hne : upper - lower ≠ 0 := (sub_pos.mpr h).ne'
  rw [across, div_eq_iff hne]
  ring

theorem across_mem_iff (h : lower < upper) :
    (-1 ≤ across lower upper x ↔ lower ≤ x) ∧ (across lower upper x ≤ 1 ↔ x ≤ upper) := by
  have hpos : 0 < upper - lower := sub_pos.mpr h
  rw [across, le_div_iff₀ hpos, div_le_iff₀ hpos]
  constructor <;> constructor <;> intro hx <;> linarith

theorem exists_across (h : lower < upper) (u : ℝ) : ∃ x, across lower upper x = u := by
  have hne : upper - lower ≠ 0 := (sub_pos.mpr h).ne'
  refine ⟨(u * (upper - lower) + (lower + upper)) / 2, ?_⟩
  rw [across, div_eq_iff hne]
  ring

theorem sign_mul_mem_iff (hsign : sign = 1 ∨ sign = -1) : -1 ≤ sign * u ∧ sign * u ≤ 1 ↔ -1 ≤ u ∧ u ≤ 1 := by
  rcases hsign with rfl | rfl
  · rw [one_mul]
  · constructor <;> rintro ⟨hlower, hupper⟩ <;> constructor <;> linarith

theorem sign_mul_sign_mul (hsign : sign = 1 ∨ sign = -1) : sign * (sign * u) = u := by
  rcases hsign with rfl | rfl <;> ring

theorem minDepth_lt_one (clip : ClipControl) : clip.minDepth < 1 := by
  unfold ClipControl.minDepth
  split <;> norm_num

theorem image_of_normalises (h : Normalises clip m view share sign) : m.apply '' view.region clip = clip.box := by
  have hdepth : 0 < 1 - clip.minDepth := sub_pos.mpr (minDepth_lt_one clip)
  ext p
  constructor
  · rintro ⟨⟨x, y, z⟩, ⟨d, hnear, hfar, hleft, hright, hbottom, htop, rfl⟩, rfl⟩
    obtain ⟨hshare, hshare'⟩ := h.between d hnear hfar
    have hx := @across_mem_iff _ _ x (view.left_lt_right d hnear)
    have hy := @across_mem_iff _ _ y (view.bottom_lt_top d hnear)
    obtain ⟨hlower, hupper⟩ := (sign_mul_mem_iff h.sign_eq).mpr ⟨hy.1.mpr hbottom, hy.2.mpr htop⟩
    rw [(h.apply_eq d x y hnear hfar).2]
    exact ⟨hx.1.mpr hleft, hx.2.mpr hright, hlower, hupper, by nlinarith, by nlinarith⟩
  · obtain ⟨x', y', z'⟩ := p
    rintro ⟨hleft, hright, hbottom, htop, hmin, hone⟩
    obtain ⟨d, hnear, hfar, hd⟩ := h.reaches ((z' - clip.minDepth) / (1 - clip.minDepth))
      (div_nonneg (sub_nonneg.mpr hmin) hdepth.le) ((div_le_one hdepth).mpr (sub_le_sub_right hone _))
    obtain ⟨x, rfl⟩ := exists_across (view.left_lt_right d hnear) x'
    obtain ⟨y, hy⟩ := exists_across (view.bottom_lt_top d hnear) (sign * y')
    have hx := @across_mem_iff _ _ x (view.left_lt_right d hnear)
    have hy' := @across_mem_iff _ _ y (view.bottom_lt_top d hnear)
    obtain ⟨hlower, hupper⟩ := (sign_mul_mem_iff h.sign_eq).mpr ⟨hbottom, htop⟩
    refine ⟨⟨x, y, clip.depth d⟩, ⟨d, hnear, hfar, hx.1.mp hleft, hx.2.mp hright, hy'.1.mp (hy ▸ hlower),
      hy'.2.mp (hy ▸ hupper), rfl⟩, ?_⟩
    rw [(h.apply_eq d x y hnear hfar).2, hy, sign_mul_sign_mul h.sign_eq, hd, mul_div_cancel₀ _ hdepth.ne',
      add_sub_cancel]

theorem projects_of_normalises {divisors : List ℝ} (hdivisors : ∀ x ∈ divisors, x ≠ 0)
    (h : Normalises clip m view share sign) : Projects clip m divisors view := by
  refine ⟨hdivisors, ?_, ?_, ?_, ?_, ?_, ?_, image_of_normalises h⟩
  · rintro ⟨x, y, z⟩ ⟨d, hnear, hfar, -, -, -, -, rfl⟩
    exact (h.apply_eq d x y hnear hfar).1
  · intro d y hnear hfar
    rw [(h.apply_eq d _ y hnear hfar).2]
    exact across_lower (view.left_lt_right d hnear)
  · intro d y hnear hfar
    rw [(h.apply_eq d _ y hnear hfar).2]
    exact across_upper (view.left_lt_right d hnear)
  · rcases h.sign_eq with hsign | hsign
    · refine Or.inl fun d x hnear hfar => ?_
      rw [(h.apply_eq d x _ hnear hfar).2, (h.apply_eq d x _ hnear hfar).2, hsign]
      simp only [across_lower (view.bottom_lt_top d hnear), across_upper (view.bottom_lt_top d hnear)]
      norm_num
    · refine Or.inr fun d x hnear hfar => ?_
      rw [(h.apply_eq d x _ hnear hfar).2, (h.apply_eq d x _ hnear hfar).2, hsign]
      simp only [across_lower (view.bottom_lt_top d hnear), across_upper (view.bottom_lt_top d hnear)]
      norm_num
  · intro x y
    rw [(h.apply_eq _ x y le_rfl view.near_lt_far.le).2]
    simp only [h.near]
    ring
  · intro x y
    rw [(h.apply_eq _ x y view.near_lt_far.le le_rfl).2]
    simp only [h.far]
    ring

end Views

/-! ## Boxes -/

/-- What `Orthographic` is given. -/
structure ViewBox where
  left : ℝ
  right : ℝ
  bottom : ℝ
  top : ℝ
  near : ℝ
  far : ℝ
  left_lt_right : left < right
  bottom_lt_top : bottom < top
  near_pos : 0 < near
  near_lt_far : near < far

namespace ViewBox

variable (box : ViewBox) {clip : ClipControl} {m11 m22 m23 sign x y z : ℝ}

def view : View where
  near := box.near
  far := box.far
  left := fun _ => box.left
  right := fun _ => box.right
  bottom := fun _ => box.bottom
  top := fun _ => box.top
  near_lt_far := box.near_lt_far
  left_lt_right := fun _ _ => box.left_lt_right
  bottom_lt_top := fun _ _ => box.bottom_lt_top

/-- Without an offset and a zoom. -/
noncomputable def projection (clip : ClipControl) : Matrix4 ℝ :=
  .orthographic box.near box.far 0 0 1 box.left box.right box.bottom box.top clip

noncomputable def divisors : List ℝ :=
  Matrix4.orthographicDivisors box.near box.far box.left box.right box.bottom box.top

/-- `Orthographic` does what it is for. -/
def Projected (clip : ClipControl) : Prop := Projects clip (box.projection clip) box.divisors box.view

theorem divisors_ne : ∀ x ∈ box.divisors, x ≠ 0 := by
  have hx := (sub_pos.mpr box.left_lt_right).ne'
  have hy := (sub_pos.mpr box.bottom_lt_top).ne'
  have hz := (sub_pos.mpr box.near_lt_far).ne'
  intro x hmem
  simp only [divisors, Matrix4.orthographicDivisors, List.mem_cons, List.not_mem_nil, or_false] at hmem
  rcases hmem with rfl | rfl | rfl
  · exact hx
  · exact hy
  · exact hz

theorem apply_orthographicMatrix :
    (Matrix4.orthographicMatrix box.near box.far 0 0 1 box.left box.right box.bottom box.top m11 m22 m23).apply
      ⟨x, y, z⟩ = ⟨across box.left box.right x, (m11 * y - (box.top + box.bottom)) / (box.top - box.bottom),
        (m22 * z + m23) / (box.far - box.near)⟩ := by
  have htwo : (two : ℝ) = 2 := rfl
  simp only [Matrix4.apply, Matrix4.orthographicMatrix, htwo, across, Vector3.mk.injEq]
  refine ⟨?_, ?_, ?_⟩ <;> ring

theorem divisor_orthographicMatrix :
    (Matrix4.orthographicMatrix box.near box.far 0 0 1 box.left box.right box.bottom box.top m11 m22 m23).divisor
      ⟨x, y, z⟩ = 1 := by
  simp [Matrix4.divisor, Matrix4.orthographicMatrix]

noncomputable def share (d : ℝ) : ℝ := (d - box.near) / (box.far - box.near)

theorem normalises_orthographicMatrix (hsign : sign = 1 ∨ sign = -1 ∧ box.bottom = -box.top) (h11 : m11 = 2 * sign)
    (hz : ∀ d, m22 * clip.depth d + m23 = clip.minDepth * (box.far - box.near) + (1 - clip.minDepth) * (d - box.near)) :
    Normalises clip
      (.orthographicMatrix box.near box.far 0 0 1 box.left box.right box.bottom box.top m11 m22 m23) box.view
      box.share sign := by
  have hpos : 0 < box.far - box.near := sub_pos.mpr box.near_lt_far
  refine ⟨hsign.imp_right And.left, ?_, ?_, ?_, ?_, ?_⟩
  · exact (div_eq_zero_iff.mpr (Or.inl (sub_self _)))
  · exact div_self hpos.ne'
  · intro d hnear hfar
    exact ⟨div_nonneg (sub_nonneg.mpr hnear) hpos.le, (div_le_one hpos).mpr (sub_le_sub_right hfar _)⟩
  · intro u hzero hone
    refine ⟨box.near + u * (box.far - box.near), ?_, ?_, ?_⟩
    · exact le_add_of_nonneg_right (mul_nonneg hzero hpos.le)
    · change box.near + u * (box.far - box.near) ≤ box.far
      nlinarith
    · rw [share, add_sub_cancel_left, mul_div_cancel_right₀ _ hpos.ne']
  · intro d x y _ _
    refine ⟨?_, ?_⟩
    · rw [divisor_orthographicMatrix]
      exact one_ne_zero
    · rw [apply_orthographicMatrix, hz, h11]
      simp only [view, Vector3.mk.injEq, true_and]
      constructor
      · rcases hsign with rfl | ⟨rfl, hcentre⟩
        · rw [across]
          ring
        · rw [across, hcentre]
          ring
      · rw [share]
        field_simp

theorem projected_iff : box.Projected clip ↔
    clip = .RH_NO ∨ clip = .LH_NO ∨ clip = .RH_ZO ∧ box.bottom = -box.top := by
  have htwo : (two : ℝ) = 2 := rfl
  have hheight := (sub_pos.mpr box.bottom_lt_top).ne'
  have hlength := (sub_pos.mpr box.near_lt_far).ne'
  cases clip with
  | RH_NO =>
    refine iff_of_true (projects_of_normalises box.divisors_ne (box.normalises_orthographicMatrix (Or.inl rfl)
      (mul_one _).symm fun d => ?_)) (Or.inl rfl)
    simp only [htwo, ClipControl.depth, ClipControl.minDepth, ClipControl.isDepthZeroOne, Bool.false_eq_true, if_false]
    ring
  | LH_NO =>
    refine iff_of_true (projects_of_normalises box.divisors_ne (box.normalises_orthographicMatrix (Or.inl rfl)
      (mul_one _).symm fun d => ?_)) (Or.inr (Or.inl rfl))
    simp only [htwo, ClipControl.depth, ClipControl.minDepth, ClipControl.isDepthZeroOne, Bool.false_eq_true, if_false]
    ring
  | RH_ZO =>
    constructor
    · intro h
      refine Or.inr (Or.inr ⟨rfl, ?_⟩)
      have hends := h.ends
      simp only [projection, Matrix4.orthographic, Matrix4.orthographicRH_ZO, apply_orthographicMatrix, view, htwo]
        at hends
      rcases hends with hends | hends
      · obtain ⟨hbottom, htop⟩ := hends box.near 0 le_rfl box.near_lt_far.le
        rw [div_eq_iff hheight] at hbottom htop
        linarith [box.bottom_lt_top]
      · obtain ⟨hbottom, htop⟩ := hends box.near 0 le_rfl box.near_lt_far.le
        rw [div_eq_iff hheight] at hbottom htop
        linarith
    · rintro (h | h | ⟨-, hcentre⟩)
      · cases h
      · cases h
      · refine projects_of_normalises box.divisors_ne (box.normalises_orthographicMatrix (Or.inr ⟨rfl, hcentre⟩)
          (mul_neg_one _).symm fun d => ?_)
        simp only [ClipControl.depth, ClipControl.minDepth, ClipControl.isDepthZeroOne, if_true]
        ring
  | LH_ZO =>
    refine iff_of_false (fun h => ?_) (by simp)
    have hnear := h.near 0 0
    simp only [projection, Matrix4.orthographic, Matrix4.orthographicLH_ZO, apply_orthographicMatrix, view,
      ClipControl.depth, ClipControl.minDepth, ClipControl.isDepthZeroOne, if_true, div_eq_zero_iff, hlength,
      or_false] at hnear
    linarith [box.near_pos]

end ViewBox

/-! ## Frustums -/

/-- What `Perspective` is given. -/
structure ViewFrustum where
  near : ℝ
  far : ℝ
  aspect : ℝ
  fov : ℝ
  near_pos : 0 < near
  near_lt_far : near < far
  aspect_pos : 0 < aspect
  fov_pos : 0 < fov
  /-- Half of the angle is less than a right one. -/
  slope_pos : 0 < Real.tan (fov * degToRad * literal (1 / 2))

namespace ViewFrustum

variable (frustum : ViewFrustum) {clip : ClipControl} {m11 m22 m23 m32 sign x y z : ℝ}

/-- Half the height at distance one. -/
noncomputable def slope : ℝ := Real.tan (frustum.fov * degToRad * literal (1 / 2))

noncomputable def view : View where
  near := frustum.near
  far := frustum.far
  left := fun d => -(d * frustum.slope * frustum.aspect)
  right := fun d => d * frustum.slope * frustum.aspect
  bottom := fun d => -(d * frustum.slope)
  top := fun d => d * frustum.slope
  near_lt_far := frustum.near_lt_far
  left_lt_right := fun _ hd => neg_lt_self
    (mul_pos (mul_pos (frustum.near_pos.trans_le hd) frustum.slope_pos) frustum.aspect_pos)
  bottom_lt_top := fun _ hd => neg_lt_self (mul_pos (frustum.near_pos.trans_le hd) frustum.slope_pos)

/-- Without an offset and a zoom. -/
noncomputable def projection (clip : ClipControl) : Matrix4 ℝ :=
  .perspective Real.tan frustum.near frustum.far frustum.aspect frustum.fov 0 0 1 clip

noncomputable def divisors (clip : ClipControl) : List ℝ :=
  Matrix4.perspectiveDivisors Real.tan frustum.near frustum.far frustum.aspect frustum.fov clip

/-- `Perspective` does what it is for. -/
def Projected (clip : ClipControl) : Prop :=
  Projects clip (frustum.projection clip) (frustum.divisors clip) frustum.view

theorem divisors_ne (hclip : clip ≠ .LH_NO) : ∀ x ∈ frustum.divisors clip, x ≠ 0 := by
  have hdepth := (sub_neg.mpr frustum.near_lt_far).ne
  intro x hmem
  simp only [divisors, Matrix4.perspectiveDivisors, List.mem_cons, List.not_mem_nil, or_false] at hmem
  rcases hmem with rfl | rfl | rfl
  · exact frustum.slope_pos.ne'
  · cases clip with
    | LH_NO => exact absurd rfl hclip
    | LH_ZO => exact hdepth
    | RH_ZO => exact hdepth
    | RH_NO => exact hdepth
  · exact frustum.aspect_pos.ne'

theorem apply_perspectiveMatrix (h : ℝ) :
    (Matrix4.perspectiveMatrix h frustum.aspect m11 m22 m23 m32 0 0).apply ⟨x, y, z⟩ =
      ⟨h / frustum.aspect * x / (m32 * z), m11 * y / (m32 * z), (m22 * z + m23) / (m32 * z)⟩ := by
  simp only [Matrix4.apply, Matrix4.perspectiveMatrix, Vector3.mk.injEq]
  refine ⟨?_, ?_, ?_⟩ <;> ring

theorem divisor_perspectiveMatrix (h : ℝ) :
    (Matrix4.perspectiveMatrix h frustum.aspect m11 m22 m23 m32 0 0).divisor ⟨x, y, z⟩ = m32 * z := by
  simp [Matrix4.divisor, Matrix4.perspectiveMatrix]

/-- Greater near the viewer than far from it. -/
noncomputable def share (d : ℝ) : ℝ := frustum.far * (d - frustum.near) / ((frustum.far - frustum.near) * d)

theorem normalises_perspectiveMatrix (hsign : sign = 1 ∨ sign = -1) (h11 : m11 = sign * (1 / frustum.slope))
    (hw : ∀ d, m32 * clip.depth d = d)
    (hz : ∀ d, m22 * clip.depth d + m23 =
      clip.minDepth * d + (1 - clip.minDepth) * (frustum.far * (d - frustum.near) / (frustum.far - frustum.near))) :
    Normalises clip (.perspectiveMatrix (1 / frustum.slope) frustum.aspect m11 m22 m23 m32 0 0) frustum.view
      frustum.share sign := by
  have hnear := frustum.near_pos
  have hfar := hnear.trans frustum.near_lt_far
  have hpos : 0 < frustum.far - frustum.near := sub_pos.mpr frustum.near_lt_far
  have hslope : frustum.slope ≠ 0 := frustum.slope_pos.ne'
  have haspect := frustum.aspect_pos.ne'
  refine ⟨hsign, ?_, ?_, ?_, ?_, ?_⟩
  · change frustum.far * (frustum.near - frustum.near) / _ = 0
    rw [sub_self, mul_zero, zero_div]
  · change frustum.far * (frustum.far - frustum.near) / ((frustum.far - frustum.near) * frustum.far) = 1
    rw [mul_comm, div_self (mul_pos hpos hfar).ne']
  · intro d hd hd'
    have hdpos : 0 < d := hnear.trans_le hd
    change frustum.near ≤ d at hd
    change d ≤ frustum.far at hd'
    refine ⟨div_nonneg (mul_nonneg hfar.le (sub_nonneg.mpr hd)) (mul_pos hpos hdpos).le, ?_⟩
    rw [share, div_le_one (mul_pos hpos hdpos)]
    nlinarith
  · intro u hzero hone
    have hdivisor : 0 < frustum.far - u * (frustum.far - frustum.near) := by nlinarith
    refine ⟨frustum.far * frustum.near / (frustum.far - u * (frustum.far - frustum.near)), ?_, ?_, ?_⟩
    · change frustum.near ≤ _
      rw [le_div_iff₀ hdivisor]
      nlinarith [mul_nonneg hzero hpos.le]
    · change _ ≤ frustum.far
      rw [div_le_iff₀ hdivisor]
      nlinarith [mul_nonneg hfar.le (mul_nonneg hpos.le (sub_nonneg.mpr hone))]
    · rw [share]
      field_simp
      ring
  · intro d x y hd _
    have hdpos : d ≠ 0 := (hnear.trans_le hd).ne'
    refine ⟨?_, ?_⟩
    · rw [divisor_perspectiveMatrix, hw]
      exact hdpos
    · rw [apply_perspectiveMatrix, hw, hz, h11]
      simp only [view, Vector3.mk.injEq, across]
      refine ⟨?_, ?_, ?_⟩
      · field_simp
        ring
      · field_simp
        ring
      · rw [share]
        field_simp

theorem projected_iff : frustum.Projected clip ↔ clip = .RH_ZO ∨ clip = .RH_NO := by
  have htwo : (two : ℝ) = 2 := rfl
  have hneg := (sub_neg.mpr frustum.near_lt_far).ne
  have hlength := (sub_pos.mpr frustum.near_lt_far).ne'
  have hfar := (frustum.near_pos.trans frustum.near_lt_far).ne'
  cases clip with
  | RH_ZO =>
    refine iff_of_true (projects_of_normalises (frustum.divisors_ne (by simp)) (frustum.normalises_perspectiveMatrix
      (Or.inr rfl) (neg_one_mul _).symm (fun d => neg_mul_neg 1 d |>.trans (one_mul d)) fun d => ?_)) (Or.inl rfl)
    simp only [ClipControl.depth, ClipControl.minDepth, ClipControl.isDepthZeroOne, if_true]
    field_simp
    ring
  | RH_NO =>
    refine iff_of_true (projects_of_normalises (frustum.divisors_ne (by simp)) (frustum.normalises_perspectiveMatrix
      (Or.inl rfl) (one_mul _).symm (fun d => neg_mul_neg 1 d |>.trans (one_mul d)) fun d => ?_)) (Or.inr rfl)
    simp only [htwo, ClipControl.depth, ClipControl.minDepth, ClipControl.isDepthZeroOne, Bool.false_eq_true, if_false]
    field_simp
    ring
  | LH_ZO =>
    refine iff_of_false (fun h => ?_) (by simp)
    have hz := h.near 0 0
    simp only [projection, Matrix4.perspective, Matrix4.perspectiveLH_ZO, apply_perspectiveMatrix, view,
      ClipControl.depth, ClipControl.minDepth, ClipControl.isDepthZeroOne, if_true, one_mul, div_eq_zero_iff,
      frustum.near_pos.ne', or_false] at hz
    have hsum : 2 * (frustum.far * frustum.near) * (1 / (frustum.near - frustum.far)) = 0 := by
      rw [← hz]
      ring
    exact mul_ne_zero (mul_ne_zero two_ne_zero (mul_ne_zero hfar frustum.near_pos.ne')) (one_div_ne_zero hneg) hsum
  | LH_NO =>
    refine iff_of_false (fun h => ?_) (by simp)
    exact h.divisors_ne (frustum.far - frustum.far) (by simp [divisors, Matrix4.perspectiveDivisors]) (sub_self _)

end ViewFrustum

/-- Which of the two do what they are for, in any of the systems that can be selected. -/
theorem projected_setUpCoordSystem_iff (leftHanded forceZeroToOne : Bool) (box : ViewBox) (frustum : ViewFrustum) :
    (box.Projected (setUpCoordSystem leftHanded forceZeroToOne) ↔
      forceZeroToOne = false ∨ leftHanded = false ∧ box.bottom = -box.top) ∧
    (frustum.Projected (setUpCoordSystem leftHanded forceZeroToOne) ↔ leftHanded = false) := by
  rw [box.projected_iff, frustum.projected_iff]
  cases leftHanded <;> cases forceZeroToOne <;> simp [setUpCoordSystem]

/-- From the ground up, as a backend with depths from zero to one projects it. -/
def aboveGround : ViewBox := ⟨-1, 1, 0, 1 + 1, 1, 1 + 1 + 1, by norm_num, by norm_num, by norm_num, by norm_num⟩

/-- The top goes to -3. -/
theorem aboveGround_not_projected : ¬ aboveGround.Projected (setUpCoordSystem false true) := by
  intro h
  have htop : ((aboveGround.projection (setUpCoordSystem false true)).apply
      ⟨0, aboveGround.view.top 1, (setUpCoordSystem false true).depth 1⟩).y = -3 := by
    simp only [setUpCoordSystem, ViewBox.projection, Matrix4.orthographic, Matrix4.orthographicRH_ZO,
      Matrix4.orthographicMatrix, Matrix4.apply, aboveGround, ViewBox.view, ClipControl.depth, Bool.false_eq_true,
      if_true, if_false, two_real]
    norm_num
  have hfar : (1 : ℝ) ≤ aboveGround.view.far := by norm_num [aboveGround, ViewBox.view]
  rcases h.ends with hends | hends
  · have hone := htop.symm.trans (hends 1 0 le_rfl hfar).2
    norm_num at hone
  · have hone := htop.symm.trans (hends 1 0 le_rfl hfar).2
    norm_num at hone

end Lumos.Maths
