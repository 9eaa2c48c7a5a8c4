import Mathlib

/-!
# Linear images of boxes

A linear function takes its least and its greatest value on a box at corners. They are as far
from its value at the centre as the absolute values of its coefficients make of the half
extents.
-/
namespace Lumos.BoxImage

section Corners

variable {ι : Type} (a centre extent : ι → ℝ)

def Inside (x : ι → ℝ) : Prop := ∀ i, |x i - centre i| ≤ extent i

def AtCorner (x : ι → ℝ) : Prop := ∀ i, x i = centre i - extent i ∨ x i = centre i + extent i

open Classical in
/-- The corner where a linear function is greatest. -/
noncomputable def topCorner : ι → ℝ := fun i => if 0 ≤ a i then centre i + extent i else centre i - extent i

theorem atCorner_topCorner : AtCorner centre extent (topCorner a centre extent) := by
  intro i
  unfold topCorner
  split
  · exact .inr rfl
  · exact .inl rfl

theorem mul_topCorner (i : ι) : a i * topCorner a centre extent i = a i * centre i + |a i| * extent i := by
  unfold topCorner
  split
  · next h =>
    rw [abs_of_nonneg h]
    ring
  · next h =>
    rw [abs_of_neg (not_le.mp h)]
    ring

variable {centre extent}

theorem inside_of_atCorner {x : ι → ℝ} (hextent : ∀ i, 0 ≤ extent i) (hx : AtCorner centre extent x) :
    Inside centre extent x := by
  intro i
  obtain h | h := hx i
  · rw [h, sub_sub_cancel_left, abs_neg, abs_of_nonneg (hextent i)]
  · rw [h, add_sub_cancel_left, abs_of_nonneg (hextent i)]

end Corners

variable {ι : Type} [Fintype ι] (a centre extent : ι → ℝ)

/-- The value at the centre. -/
noncomputable def middle : ℝ := ∑ i, a i * centre i

/-- How far the values go from there. -/
noncomputable def reach : ℝ := ∑ i, |a i| * extent i

variable {centre extent} in
theorem abs_sub_middle_le {x : ι → ℝ} (hx : Inside centre extent x) :
    |∑ i, a i * x i - middle a centre| ≤ reach a extent := by
  have hpart : ∀ i, |a i * x i - a i * centre i| ≤ |a i| * extent i := by
    intro i
    rw [← mul_sub, abs_mul]
    exact mul_le_mul_of_nonneg_left (hx i) (abs_nonneg _)
  rw [middle, ← Finset.sum_sub_distrib]
  exact (Finset.abs_sum_le_sum_abs _ _).trans (Finset.sum_le_sum fun i _ => hpart i)

theorem sum_topCorner : ∑ i, a i * topCorner a centre extent i = middle a centre + reach a extent := by
  rw [middle, reach, ← Finset.sum_add_distrib]
  exact Finset.sum_congr rfl fun i _ => mul_topCorner a centre extent i

/-- The corner where it is least. -/
theorem sum_bottomCorner : ∑ i, a i * topCorner (-a) centre extent i = middle a centre - reach a extent := by
  have htop := sum_topCorner (-a) centre extent
  have hmiddle : middle (-a) centre = -middle a centre := by simp [middle]
  have hreach : reach (-a) extent = reach a extent := by simp [reach]
  rw [hmiddle, hreach] at htop
  simp only [Pi.neg_apply, neg_mul, Finset.sum_neg_distrib] at htop
  linarith

variable {extent}

theorem isGreatest_corners (hextent : ∀ i, 0 ≤ extent i) :
    IsGreatest ((fun x => ∑ i, a i * x i) '' {x | AtCorner centre extent x}) (middle a centre + reach a extent) := by
  constructor
  · exact ⟨topCorner a centre extent, atCorner_topCorner a centre extent, sum_topCorner a centre extent⟩
  · rintro _ ⟨x, hx, rfl⟩
    have hle := (abs_le.mp (abs_sub_middle_le a (inside_of_atCorner hextent hx))).2
    linarith

theorem isLeast_corners (hextent : ∀ i, 0 ≤ extent i) :
    IsLeast ((fun x => ∑ i, a i * x i) '' {x | AtCorner centre extent x}) (middle a centre - reach a extent) := by
  constructor
  · exact ⟨topCorner (-a) centre extent, atCorner_topCorner (-a) centre extent, sum_bottomCorner a centre extent⟩
  · rintro _ ⟨x, hx, rfl⟩
    have hle := (abs_le.mp (abs_sub_middle_le a (inside_of_atCorner hextent hx))).1
    linarith

end Lumos.BoxImage
