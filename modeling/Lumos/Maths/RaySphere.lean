import Lumos.Maths.RayHits

/-!
# Rays and spheres

Along a ray with a direction of unit length the squared distance from the centre is a parabola.
The nearer of its roots is the distance to the sphere when it is in front of the origin, and
when it is not, neither is the other one.
-/
namespace Lumos.Maths

open FloatArithmetic FloatLiterals

/-- The closed ball, which is empty for a negative radius. -/
def Sphere.ball (sphere : Sphere ℝ) : Set (Vector3 ℝ) := {v | ‖(v - sphere.center).point‖ ≤ sphere.radius}

namespace Ray

variable {ray : Ray ℝ} {sphere : Sphere ℝ} {t : ℝ}

/-! ## The parabola -/

/-- The squared distance from the centre, less the squared radius. -/
noncomputable def excess (ray : Ray ℝ) (sphere : Sphere ℝ) (t : ℝ) : ℝ :=
  (ray.pointAt t - sphere.center).lengthSquared - sphere.radius * sphere.radius

theorem c_real (ray : Ray ℝ) (sphere : Sphere ℝ) :
    ray.c sphere = (ray.origin - sphere.center).lengthSquared - sphere.radius * sphere.radius := rfl

theorem b_real (ray : Ray ℝ) (sphere : Sphere ℝ) :
    ray.b sphere = 2 * (ray.origin - sphere.center).dotProduct ray.direction := rfl

theorem d_real (hunit : ray.direction.lengthSquared = 1) (sphere : Sphere ℝ) :
    ray.d sphere = ray.b sphere ^ 2 - 4 * ray.c sphere := by
  have ha : ray.a = 1 := hunit
  rw [d, ha, literal_real]
  push_cast
  ring

theorem excess_eq (hunit : ray.direction.lengthSquared = 1) (sphere : Sphere ℝ) (t : ℝ) :
    4 * ray.excess sphere t = (2 * t + ray.b sphere) ^ 2 - ray.d sphere := by
  have hexpand : ray.excess sphere t = ray.direction.lengthSquared * t ^ 2 + ray.b sphere * t + ray.c sphere := by
    rw [excess, c_real, b_real]
    simp only [pointAt, Vector3.lengthSquared_real, Vector3.dotProduct_real, Vector3.add_x, Vector3.add_y,
      Vector3.add_z, Vector3.sub_x, Vector3.sub_y, Vector3.sub_z, Vector3.mul_x, Vector3.mul_y, Vector3.mul_z]
    ring
  rw [hexpand, hunit, d_real hunit]
  ring

theorem excess_zero (ray : Ray ℝ) (sphere : Sphere ℝ) : ray.excess sphere 0 = ray.c sphere := by
  simp [excess, c_real, pointAt, Vector3.lengthSquared_real]

theorem mem_ball_iff {v : Vector3 ℝ} : v ∈ sphere.ball ↔
    0 ≤ sphere.radius ∧ (v - sphere.center).lengthSquared ≤ sphere.radius * sphere.radius := by
  change ‖(v - sphere.center).point‖ ≤ sphere.radius ↔ _
  rw [← Vector3.norm_point_sq, ← sq]
  constructor
  · intro h
    have hradius := (norm_nonneg _).trans h
    exact ⟨hradius, (sq_le_sq₀ (norm_nonneg _) hradius).mpr h⟩
  · rintro ⟨hradius, h⟩
    exact (sq_le_sq₀ (norm_nonneg _) hradius).mp h

theorem pointAt_mem_ball_iff : ray.pointAt t ∈ sphere.ball ↔ 0 ≤ sphere.radius ∧ ray.excess sphere t ≤ 0 := by
  rw [mem_ball_iff, excess, sub_nonpos]

/-! ## The cases -/

theorem hitDistanceSphere_of_inside (h : ray.c sphere ≤ 0) : ray.hitDistanceSphere sphere = some 0 := by
  apply if_pos
  rw [le_real]
  exact sub_nonpos.mp h

theorem hitDistanceSphere_of_outside (h : 0 < ray.c sphere) (hunit : ray.direction.lengthSquared = 1) :
    ray.hitDistanceSphere sphere =
      if ray.d sphere < 0 then none
      else if 0 ≤ -ray.b sphere - √(ray.d sphere) then some ((-ray.b sphere - √(ray.d sphere)) / 2)
      else some ((-ray.b sphere + √(ray.d sphere)) / 2) := by
  have hnot : ¬ le (ray.centeredOrigin sphere).lengthSquared (squaredRadius sphere) = true := by
    rw [le_real, not_le]
    exact sub_pos.mp h
  have ha : ray.a = 1 := hunit
  rw [hitDistanceSphere, if_neg hnot, ha, two_real, mul_one, sqrtf_real]
  simp only [lt_real, le_real]
  split
  · rfl
  · have hiff : 0 ≤ (-ray.b sphere - √(ray.d sphere)) / 2 ↔ 0 ≤ -ray.b sphere - √(ray.d sphere) := by
      constructor
      · exact fun hhalf => by linarith
      · exact fun hnonneg => by linarith
    simp only [hiff]

/-- From outside, both roots are in front of the origin or both behind it. -/
theorem sqrt_d_lt (h : 0 < ray.c sphere) (hunit : ray.direction.lengthSquared = 1) (hd : 0 ≤ ray.d sphere) :
    √(ray.d sphere) < |ray.b sphere| := by
  rw [← Real.sqrt_sq_eq_abs]
  apply Real.sqrt_lt_sqrt hd
  rw [d_real hunit]
  linarith

/-- A ray that goes away from the sphere gets the distance of a point behind it. -/
theorem hitDistanceSphere_of_away (h : 0 < ray.c sphere) (hunit : ray.direction.lengthSquared = 1)
    (hd : 0 ≤ ray.d sphere) (hb : 0 ≤ ray.b sphere) : ∃ t < 0, ray.hitDistanceSphere sphere = some t := by
  have hroot := sqrt_d_lt h hunit hd
  rw [abs_of_nonneg hb] at hroot
  have hsqrt := Real.sqrt_nonneg (ray.d sphere)
  refine ⟨(-ray.b sphere + √(ray.d sphere)) / 2, by linarith, ?_⟩
  rw [hitDistanceSphere_of_outside h hunit, if_neg (not_lt.mpr hd), if_neg (by linarith)]

/-- One that goes towards it gets the nearer point. -/
theorem firstHit_of_towards (h : 0 < ray.c sphere) (hunit : ray.direction.lengthSquared = 1) (hd : 0 ≤ ray.d sphere)
    (hb : ray.b sphere < 0) (hradius : 0 ≤ sphere.radius) :
    ray.FirstHit sphere.ball (ray.hitDistanceSphere sphere) := by
  have hroot := sqrt_d_lt h hunit hd
  rw [abs_of_neg hb] at hroot
  have hsquare := Real.sq_sqrt hd
  rw [hitDistanceSphere_of_outside h hunit, if_neg (not_lt.mpr hd), if_pos (by linarith)]
  constructor
  · refine ⟨by linarith, pointAt_mem_ball_iff.mpr ⟨hradius, ?_⟩⟩
    have hexcess := excess_eq hunit sphere ((-ray.b sphere - √(ray.d sphere)) / 2)
    have hzero : (2 * ((-ray.b sphere - √(ray.d sphere)) / 2) + ray.b sphere) ^ 2 = √(ray.d sphere) ^ 2 := by ring
    linarith
  · rintro t ⟨-, ht⟩
    have hexcess := excess_eq hunit sphere t
    have hle : (2 * t + ray.b sphere) ^ 2 ≤ √(ray.d sphere) ^ 2 := by
      linarith [(pointAt_mem_ball_iff.mp ht).2]
    have habs := abs_le.mp (abs_le_of_sq_le_sq hle (Real.sqrt_nonneg _))
    linarith [habs.1]

/-! ## The distance -/

/-- The line misses the sphere, or the ray starts in the ball or goes towards its centre. -/
def MeetsInFront (ray : Ray ℝ) (sphere : Sphere ℝ) : Prop :=
  (∀ t : ℝ, |sphere.radius| < ‖(ray.pointAt t - sphere.center).point‖) ∨
    0 ≤ sphere.radius ∧ (ray.origin ∈ sphere.ball ∨ (ray.origin - sphere.center).dotProduct ray.direction < 0)

theorem misses_iff (hunit : ray.direction.lengthSquared = 1) :
    (∀ t : ℝ, |sphere.radius| < ‖(ray.pointAt t - sphere.center).point‖) ↔ ray.d sphere < 0 := by
  have hiff : ∀ t, |sphere.radius| < ‖(ray.pointAt t - sphere.center).point‖ ↔ 0 < ray.excess sphere t := by
    intro t
    rw [excess, sub_pos, ← Vector3.norm_point_sq, ← sq, sq_lt_sq, abs_norm]
  simp only [hiff]
  constructor
  · intro h
    have hmiddle := excess_eq hunit sphere (-ray.b sphere / 2)
    have hzero : 2 * (-ray.b sphere / 2) + ray.b sphere = 0 := by ring
    rw [hzero] at hmiddle
    linarith [h (-ray.b sphere / 2)]
  · intro h t
    have hexcess := excess_eq hunit sphere t
    linarith [sq_nonneg (2 * t + ray.b sphere)]

/-- The distance to a sphere is that of the first point of the ray in the ball, unless a ray that
starts outside goes away from it along a line that meets it. -/
theorem firstHit_sphere_iff (hunit : ray.direction.lengthSquared = 1) (sphere : Sphere ℝ) :
    ray.FirstHit sphere.ball (ray.hitDistanceSphere sphere) ↔ ray.MeetsInFront sphere := by
  have horigin : ray.origin ∈ sphere.ball ↔ 0 ≤ sphere.radius ∧ ray.c sphere ≤ 0 := by
    rw [mem_ball_iff, c_real, sub_nonpos]
  have htowards : (ray.origin - sphere.center).dotProduct ray.direction < 0 ↔ ray.b sphere < 0 := by
    rw [b_real, mul_neg_iff]
    constructor
    · exact fun h => Or.inl ⟨zero_lt_two, h⟩
    · rintro (⟨-, h⟩ | ⟨h, -⟩)
      · exact h
      · exact absurd h (not_lt.mpr zero_le_two)
  rw [MeetsInFront, misses_iff hunit, horigin, htowards]
  rcases lt_or_ge (ray.d sphere) 0 with hd | hd
  · have hc : 0 < ray.c sphere := by
      have hsquare := sq_nonneg (ray.b sphere)
      rw [d_real hunit] at hd
      linarith
    refine iff_of_true ?_ (Or.inl hd)
    rw [hitDistanceSphere_of_outside hc hunit, if_pos hd]
    intro t _ hmem
    have hexcess := excess_eq hunit sphere t
    linarith [(pointAt_mem_ball_iff.mp hmem).2, sq_nonneg (2 * t + ray.b sphere)]
  · rcases le_or_gt (ray.c sphere) 0 with hc | hc
    · rw [hitDistanceSphere_of_inside hc]
      constructor
      · intro h
        have hmem := (pointAt_mem_ball_iff.mp h.1.2).1
        exact Or.inr ⟨hmem, Or.inl ⟨hmem, hc⟩⟩
      · rintro (hneg | ⟨hradius, -⟩)
        · exact absurd hneg (not_lt.mpr hd)
        · refine ⟨⟨le_refl 0, pointAt_mem_ball_iff.mpr ⟨hradius, ?_⟩⟩, fun t ht => ht.1⟩
          rw [excess_zero]
          exact hc
    · rcases lt_or_ge (ray.b sphere) 0 with hb | hb
      · constructor
        · intro h
          refine Or.inr ⟨?_, Or.inr hb⟩
          have hroot := sqrt_d_lt hc hunit hd
          rw [abs_of_neg hb] at hroot
          rw [hitDistanceSphere_of_outside hc hunit, if_neg (not_lt.mpr hd), if_pos (by linarith)] at h
          exact (pointAt_mem_ball_iff.mp h.1.2).1
        · rintro (hneg | ⟨hradius, -⟩)
          · exact absurd hneg (not_lt.mpr hd)
          · exact firstHit_of_towards hc hunit hd hb hradius
      · obtain ⟨t, ht, hsome⟩ := hitDistanceSphere_of_away hc hunit hd hb
        rw [hsome]
        refine iff_of_false (fun h => not_lt.mpr h.1.1 ht) ?_
        rintro (hneg | ⟨-, ⟨-, hin⟩ | hneg⟩)
        · exact not_lt.mpr hd hneg
        · exact not_lt.mpr hin hc
        · exact not_lt.mpr hb hneg

/-- From the centre. -/
theorem firstHit_sphere_centre :
    (⟨0, ⟨1, 0, 0⟩⟩ : Ray ℝ).FirstHit (Sphere.ball ⟨0, 1⟩) ((⟨0, ⟨1, 0, 0⟩⟩ : Ray ℝ).hitDistanceSphere ⟨0, 1⟩) := by
  apply (firstHit_sphere_iff _ _).mpr
  · refine Or.inr ⟨zero_le_one, Or.inl (mem_ball_iff.mpr ⟨zero_le_one, ?_⟩)⟩
    simp [Vector3.lengthSquared_real]
  · simp [Vector3.lengthSquared_real]

/-- A ball behind the origin is found there. -/
theorem not_firstHit_behind : (⟨0, ⟨1, 0, 0⟩⟩ : Ray ℝ).direction.lengthSquared = 1 ∧
    ¬ (⟨0, ⟨1, 0, 0⟩⟩ : Ray ℝ).FirstHit (Sphere.ball ⟨⟨-3, 0, 0⟩, 1⟩)
      ((⟨0, ⟨1, 0, 0⟩⟩ : Ray ℝ).hitDistanceSphere ⟨⟨-3, 0, 0⟩, 1⟩) := by
  have hunit : (⟨0, ⟨1, 0, 0⟩⟩ : Ray ℝ).direction.lengthSquared = 1 := by simp [Vector3.lengthSquared_real]
  have hc : (⟨0, ⟨1, 0, 0⟩⟩ : Ray ℝ).c ⟨⟨-3, 0, 0⟩, 1⟩ = 8 := by
    rw [c_real]
    norm_num [Vector3.lengthSquared_real]
  have hb : (⟨0, ⟨1, 0, 0⟩⟩ : Ray ℝ).b ⟨⟨-3, 0, 0⟩, 1⟩ = 6 := by
    rw [b_real]
    norm_num [Vector3.dotProduct_real]
  refine ⟨hunit, fun h => ?_⟩
  have hd : 0 ≤ (⟨0, ⟨1, 0, 0⟩⟩ : Ray ℝ).d ⟨⟨-3, 0, 0⟩, 1⟩ := by
    rw [d_real hunit, hb, hc]
    norm_num
  obtain ⟨t, ht, hsome⟩ := hitDistanceSphere_of_away (by rw [hc]; norm_num) hunit hd (by rw [hb]; norm_num)
  rw [hsome] at h
  exact not_lt.mpr h.1.1 ht

end Ray

end Lumos.Maths
