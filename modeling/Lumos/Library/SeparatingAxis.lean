import Mathlib

/-!
# Separating axes

Sets are compared by their projections onto an axis, which need not be of unit length. The
projection of a polytope is bounded by its vertices, that of a ball by its centre and its
radius.
-/
namespace Lumos.SeparatingAxis

open scoped RealInnerProductSpace

variable {E : Type*} [NormedAddCommGroup E] [InnerProductSpace ℝ E] {axis : E} {s t : Set E}

/-- Along the axis the first set ends where the second begins, or earlier. -/
def Before (axis : E) (s t : Set E) : Prop := ∀ x ∈ s, ∀ y ∈ t, ⟪axis, x⟫ ≤ ⟪axis, y⟫

theorem before_of_between {c : ℝ} (hs : ∀ x ∈ s, ⟪axis, x⟫ ≤ c) (ht : ∀ y ∈ t, c ≤ ⟪axis, y⟫) :
    Before axis s t :=
  fun x hx y hy => (hs x hx).trans (ht y hy)

/-- One of the sets ends before the other begins. -/
def Clear (axis : E) (s t : Set E) : Prop :=
  (∀ x ∈ s, ∀ y ∈ t, ⟪axis, x⟫ < ⟪axis, y⟫) ∨ ∀ x ∈ s, ∀ y ∈ t, ⟪axis, y⟫ < ⟪axis, x⟫

theorem Clear.disjoint (h : Clear axis s t) : Disjoint s t := by
  rw [Set.disjoint_left]
  intro x hs ht
  cases h with
  | inl hlt => exact lt_irrefl _ (hlt x hs x ht)
  | inr hlt => exact lt_irrefl _ (hlt x hs x ht)

theorem Clear.symm (h : Clear axis s t) : Clear axis t s :=
  (Or.symm h).imp (fun h y hy x hx => h x hx y hy) fun h y hy x hx => h x hx y hy

/-- The length and the sense of the axis do not matter. -/
theorem Clear.of_smul {c : ℝ} (hc : c ≠ 0) (h : Clear (c • axis) s t) : Clear axis s t := by
  simp only [Clear, real_inner_smul_left] at h
  cases lt_or_gt_of_ne hc with
  | inl hneg =>
    apply h.symm.imp
    · exact fun h x hx y hy => (mul_lt_mul_left_of_neg hneg).mp (h x hx y hy)
    · exact fun h x hx y hy => (mul_lt_mul_left_of_neg hneg).mp (h x hx y hy)
  | inr hpos =>
    apply h.imp
    · exact fun h x hx y hy => (mul_lt_mul_iff_right₀ hpos).mp (h x hx y hy)
    · exact fun h x hx y hy => (mul_lt_mul_iff_right₀ hpos).mp (h x hx y hy)

theorem Clear.smul {c : ℝ} (hc : c ≠ 0) (h : Clear axis s t) : Clear (c • axis) s t := by
  apply Clear.of_smul (inv_ne_zero hc)
  rw [inv_smul_smul₀ hc]
  exact h

/-- An interior point can be moved a little along any direction. -/
theorem exists_add_smul_mem {x : E} (hx : x ∈ interior s) (v : E) : ∃ ε : ℝ, 0 < ε ∧ x + ε • v ∈ s := by
  have hcontinuous : Filter.Tendsto (fun ε : ℝ => x + ε • v) (nhds 0) (nhds x) := by
    have hmap : Continuous fun ε : ℝ => x + ε • v := by fun_prop
    simpa using hmap.tendsto 0
  have hnear : ∀ᶠ ε : ℝ in nhds 0, x + ε • v ∈ s := hcontinuous (mem_interior_iff_mem_nhds.mp hx)
  have hright : ∀ᶠ ε : ℝ in nhdsWithin 0 (Set.Ioi 0), x + ε • v ∈ s :=
    hnear.filter_mono nhdsWithin_le_nhds
  obtain ⟨ε, hmem, hpos⟩ := (hright.and self_mem_nhdsWithin).exists
  exact ⟨ε, hpos, hmem⟩

theorem Before.disjoint_interior (haxis : axis ≠ 0) (h : Before axis s t) :
    Disjoint (interior s) (interior t) := by
  rw [Set.disjoint_left]
  intro x hs ht
  obtain ⟨ε, hε, hmem⟩ := exists_add_smul_mem hs axis
  have hle := h _ hmem x (interior_subset ht)
  rw [inner_add_right, real_inner_smul_right, real_inner_self_eq_norm_sq] at hle
  have hpos : 0 < ε * ‖axis‖ ^ 2 := by positivity
  linarith

/-- Convex sets with interior points overlap where one has a point inside the other. -/
theorem not_disjoint_interior {x : E} (hs : Convex ℝ s) (hinterior : (interior s).Nonempty) (hx : x ∈ s)
    (ht : x ∈ interior t) : ¬ Disjoint (interior s) (interior t) := by
  have hclosure : x ∈ closure (interior s) := by
    rw [hs.closure_interior_eq_closure_of_nonempty_interior hinterior]
    exact subset_closure hx
  obtain ⟨y, hy, hyS⟩ := mem_closure_iff.mp hclosure (interior t) isOpen_interior ht
  exact Set.not_disjoint_iff.mpr ⟨y, hyS, hy⟩

/-! ## Polytopes -/

theorem inner_le_of_mem_convexHull {c : ℝ} (h : ∀ v ∈ s, ⟪axis, v⟫ ≤ c) {x : E} (hx : x ∈ convexHull ℝ s) :
    ⟪axis, x⟫ ≤ c := by
  have hconvex : Convex ℝ {y : E | ⟪axis, y⟫ ≤ c} :=
    convex_halfSpace_le (innerₗ E axis).isLinear c
  exact convexHull_min h hconvex hx

theorem le_inner_of_mem_convexHull {c : ℝ} (h : ∀ v ∈ s, c ≤ ⟪axis, v⟫) {x : E} (hx : x ∈ convexHull ℝ s) :
    c ≤ ⟪axis, x⟫ := by
  have hconvex : Convex ℝ {y : E | c ≤ ⟪axis, y⟫} :=
    convex_halfSpace_ge (innerₗ E axis).isLinear c
  exact convexHull_min h hconvex hx

theorem inner_lt_of_mem_convexHull (h : ∀ x ∈ s, ∀ y ∈ t, ⟪axis, x⟫ < ⟪axis, y⟫) {x y : E}
    (hx : x ∈ convexHull ℝ s) (hy : y ∈ convexHull ℝ t) : ⟪axis, x⟫ < ⟪axis, y⟫ := by
  have hbelow : ∀ z ∈ t, ⟪axis, x⟫ < ⟪axis, z⟫ := by
    intro z hz
    have hconvex : Convex ℝ {w : E | ⟪axis, w⟫ < ⟪axis, z⟫} := convex_halfSpace_lt (innerₗ E axis).isLinear _
    exact convexHull_min (fun w hw => h w hw z hz) hconvex hx
  have hconvex : Convex ℝ {w : E | ⟪axis, x⟫ < ⟪axis, w⟫} := convex_halfSpace_gt (innerₗ E axis).isLinear _
  exact convexHull_min hbelow hconvex hy

/-- Polytopes are clear of each other where their vertices are. -/
theorem clear_convexHull (h : Clear axis s t) : Clear axis (convexHull ℝ s) (convexHull ℝ t) := by
  cases h with
  | inl h => exact Or.inl fun x hx y hy => inner_lt_of_mem_convexHull h hx hy
  | inr h => exact Or.inr fun x hx y hy => inner_lt_of_mem_convexHull (fun z hz w hw => h w hw z hz) hy hx

/-- No axis is blind to the set. -/
def Spanning (s : Set E) : Prop := ∀ axis : E, (∀ x ∈ s, ∀ y ∈ s, ⟪axis, x⟫ = ⟪axis, y⟫) → axis = 0

theorem Spanning.interior_nonempty [FiniteDimensional ℝ E] (h : Spanning s) (hs : s.Nonempty) :
    (interior (convexHull ℝ s)).Nonempty := by
  rw [interior_convexHull_nonempty_iff_affineSpan_eq_top,
    AffineSubspace.affineSpan_eq_top_iff_vectorSpan_eq_top_of_nonempty ℝ E E hs,
    ← Submodule.orthogonal_eq_bot_iff, Submodule.eq_bot_iff]
  intro axis haxis
  apply h axis
  intro x hx y hy
  have horthogonal := (Submodule.mem_orthogonal' _ _).mp haxis (x -ᵥ y) (vsub_mem_vectorSpan ℝ hx hy)
  rw [vsub_eq_sub, inner_sub_right] at horthogonal
  exact sub_eq_zero.mp horthogonal

/-- The points of the set it ends with along the axis. -/
def ends (axis : E) (s : Set E) : Set E := {x | x ∈ s ∧ ∀ y ∈ s, ⟪axis, y⟫ ≤ ⟪axis, x⟫}

/-- A polytope ends with the polytope of the vertices it ends with. -/
theorem mem_convexHull_ends {x : E} (hx : x ∈ convexHull ℝ s) (hmax : ∀ y ∈ s, ⟪axis, y⟫ ≤ ⟪axis, x⟫) :
    x ∈ convexHull ℝ (ends axis s) := by
  have hconvex : Convex ℝ ({y | ⟪axis, y⟫ < ⟪axis, x⟫} ∪ convexHull ℝ (ends axis s)) := by
    have hle : ∀ y ∈ {y | ⟪axis, y⟫ < ⟪axis, x⟫} ∪ convexHull ℝ (ends axis s), ⟪axis, y⟫ ≤ ⟪axis, x⟫ := by
      rintro y (hlt | hface)
      · exact hlt.le
      · exact inner_le_of_mem_convexHull (fun z hz => hmax z hz.1) hface
    rw [convex_iff_forall_pos]
    intro y hy z hz a b ha hb hab
    have hcombination : ⟪axis, a • y + b • z⟫ = a * ⟪axis, y⟫ + b * ⟪axis, z⟫ := by
      rw [inner_add_right, real_inner_smul_right, real_inner_smul_right]
    have hsplit : ⟪axis, x⟫ = a * ⟪axis, x⟫ + b * ⟪axis, x⟫ := by
      rw [← add_mul, hab, one_mul]
    have hyLe := mul_le_mul_of_nonneg_left (hle y hy) ha.le
    have hzLe := mul_le_mul_of_nonneg_left (hle z hz) hb.le
    cases hy with
    | inl hyLt =>
      left
      have hlt := mul_lt_mul_of_pos_left hyLt ha
      change ⟪axis, a • y + b • z⟫ < ⟪axis, x⟫
      rw [hcombination]
      linarith
    | inr hyFace =>
      cases hz with
      | inl hzLt =>
        left
        have hlt := mul_lt_mul_of_pos_left hzLt hb
        change ⟪axis, a • y + b • z⟫ < ⟪axis, x⟫
        rw [hcombination]
        linarith
      | inr hzFace => exact Or.inr (convex_convexHull ℝ _ hyFace hzFace ha.le hb.le hab)
  have hsub : s ⊆ {y | ⟪axis, y⟫ < ⟪axis, x⟫} ∪ convexHull ℝ (ends axis s) := by
    intro y hy
    cases lt_or_eq_of_le (hmax y hy) with
    | inl hlt => exact Or.inl hlt
    | inr heq =>
      right
      apply subset_convexHull
      refine ⟨hy, fun z hz => ?_⟩
      rw [heq]
      exact hmax z hz
  cases convexHull_min hsub hconvex hx with
  | inl hlt => exact (lt_irrefl ⟪axis, x⟫ hlt).elim
  | inr hface => exact hface

/-! ## Balls -/

theorem abs_inner_sub_le (axis : E) {centre x : E} {radius : ℝ} (hx : x ∈ Metric.closedBall centre radius) :
    |⟪axis, x⟫ - ⟪axis, centre⟫| ≤ ‖axis‖ * radius := by
  rw [← inner_sub_right]
  apply (abs_real_inner_le_norm axis (x - centre)).trans
  apply mul_le_mul_of_nonneg_left _ (norm_nonneg axis)
  rw [← dist_eq_norm]
  exact hx

/-- Balls that have nothing in common are clear of each other along the line of centres. -/
theorem clear_balls {centre1 centre2 : E} {radius1 radius2 : ℝ} (h1 : 0 ≤ radius1) (h2 : 0 ≤ radius2)
    (hdisjoint : Disjoint (Metric.closedBall centre1 radius1) (Metric.closedBall centre2 radius2)) :
    Clear (centre2 - centre1) (Metric.closedBall centre1 radius1) (Metric.closedBall centre2 radius2) := by
  have hfar : radius1 + radius2 < ‖centre2 - centre1‖ := by
    rw [← dist_eq_norm, dist_comm]
    exact (disjoint_closedBall_closedBall_iff h1 h2).mp hdisjoint
  left
  intro x hx y hy
  have hfirst := (abs_le.mp (abs_inner_sub_le (centre2 - centre1) hx)).2
  have hsecond := (abs_le.mp (abs_inner_sub_le (centre2 - centre1) hy)).1
  have hgap : ⟪centre2 - centre1, centre2⟫ - ⟪centre2 - centre1, centre1⟫ = ‖centre2 - centre1‖ ^ 2 := by
    rw [← inner_sub_right, real_inner_self_eq_norm_sq]
  have hroom : ‖centre2 - centre1‖ * (radius1 + radius2) < ‖centre2 - centre1‖ ^ 2 := by
    rw [sq]
    exact mul_lt_mul_of_pos_left hfar ((add_nonneg h1 h2).trans_lt hfar)
  rw [mul_add] at hroom
  linarith

/-- The axis to the centre of a ball from the closest point of a closed convex set: the set ends
with that point along it, and is clear of the ball. -/
theorem exists_closest [CompleteSpace E] (hs : Convex ℝ s) (hclosed : IsClosed s) (hnonempty : s.Nonempty) {centre : E}
    {radius : ℝ} (hradius : 0 ≤ radius) (hdisjoint : Disjoint s (Metric.closedBall centre radius)) :
    ∃ q ∈ s, (∀ x ∈ s, ⟪centre - q, x⟫ ≤ ⟪centre - q, q⟫) ∧
      Clear (centre - q) s (Metric.closedBall centre radius) := by
  obtain ⟨q, hq, hmin⟩ := exists_norm_eq_iInf_of_complete_convex hnonempty hclosed.isComplete hs centre
  have hends : ∀ x ∈ s, ⟪centre - q, x⟫ ≤ ⟪centre - q, q⟫ := by
    intro x hx
    have hle := (norm_eq_iInf_iff_real_inner_le_zero hs hq).mp hmin x hx
    rw [inner_sub_right] at hle
    exact sub_nonpos.mp hle
  have hfar : radius < ‖centre - q‖ := by
    rw [← dist_eq_norm, dist_comm]
    exact not_le.mp fun hle => Set.disjoint_left.mp hdisjoint hq hle
  refine ⟨q, hq, hends, Or.inl fun x hx y hy => ?_⟩
  have hball := (abs_le.mp (abs_inner_sub_le (centre - q) hy)).1
  have hgap : ⟪centre - q, centre⟫ - ⟪centre - q, q⟫ = ‖centre - q‖ ^ 2 := by
    rw [← inner_sub_right, real_inner_self_eq_norm_sq]
  have hroom : ‖centre - q‖ * radius < ‖centre - q‖ ^ 2 := by
    rw [sq]
    exact mul_lt_mul_of_pos_left hfar (hradius.trans_lt hfar)
  linarith [hends x hx]

end Lumos.SeparatingAxis

/-!
## Ways out of an overlap

Two intervals on an axis overlap by one length when the first is moved forwards and by another
when it is moved backwards. The shortest move along one of several axes of unit length that ends
an overlap on any of them is by the least of these lengths.
-/
namespace Lumos.WayOut

open scoped RealInnerProductSpace

structure Overlap (E : Type*) where
  axis : E
  /-- How far it is out forwards. -/
  forwards : ℝ
  /-- How far it is out backwards. -/
  backwards : ℝ

namespace Overlap

variable {E : Type*} [NormedAddCommGroup E]

/-- An axis of unit length, or none at all, and an overlap on it. -/
structure Fits (o : Overlap E) : Prop where
  axis : ‖o.axis‖ = 1 ∨ ‖o.axis‖ = 0 ∧ o.forwards = 0 ∧ o.backwards = 0
  forwards : 0 ≤ o.forwards
  backwards : 0 ≤ o.backwards

variable {o : Overlap E}

theorem Fits.norm_le (h : o.Fits) : ‖o.axis‖ ≤ 1 := by
  obtain hunit | ⟨hzero, -, -⟩ := h.axis
  · exact hunit.le
  · rw [hzero]
    exact zero_le_one

variable [InnerProductSpace ℝ E]

/-- A move ends the overlap. -/
def Clears (o : Overlap E) (x : E) : Prop := o.forwards ≤ ⟪o.axis, x⟫ ∨ ⟪o.axis, x⟫ ≤ -o.backwards

/-- A move that ends the overlap is no shorter than the shorter way out. -/
theorem Fits.le_norm_of_clears (h : o.Fits) {c : ℝ} (hc : c ≤ o.forwards ∧ c ≤ o.backwards) {x : E}
    (hx : o.Clears x) : c ≤ ‖x‖ := by
  have hinner : |⟪o.axis, x⟫| ≤ ‖x‖ :=
    (abs_real_inner_le_norm _ _).trans (mul_le_of_le_one_left (norm_nonneg _) h.norm_le)
  obtain hforwards | hbackwards := hx
  · exact hc.1.trans (hforwards.trans ((le_abs_self _).trans hinner))
  · have hneg : c ≤ -⟪o.axis, x⟫ := by linarith [hc.2]
    exact hneg.trans ((neg_le_abs _).trans hinner)

theorem Fits.inner_smul_axis (h : o.Fits) {t : ℝ} (ht : t = o.forwards ∨ t = -o.backwards) :
    ⟪o.axis, t • o.axis⟫ = t := by
  rw [inner_smul_right, real_inner_self_eq_norm_sq]
  obtain hunit | ⟨hzero, hforwards, hbackwards⟩ := h.axis
  · rw [hunit, one_pow, mul_one]
  · have htzero : t = 0 := by
      obtain rfl | rfl := ht
      · exact hforwards
      · rw [hbackwards, neg_zero]
    rw [htzero, zero_mul]

/-- Both ways out end the overlap. -/
theorem Fits.clears_smul_axis (h : o.Fits) {t : ℝ} (ht : t = o.forwards ∨ t = -o.backwards) :
    o.Clears (t • o.axis) := by
  rw [Clears, h.inner_smul_axis ht]
  exact ht.imp (fun heq => heq.ge) fun heq => heq.le

theorem Fits.norm_smul_axis_le (h : o.Fits) (t : ℝ) : ‖t • o.axis‖ ≤ |t| := by
  rw [norm_smul, Real.norm_eq_abs]
  exact mul_le_of_le_one_right (abs_nonneg t) h.norm_le

/-- A move is the shortest of those along an axis that end an overlap where no way out of any of
them is shorter. -/
theorem shortest_iff {overlaps : Set (Overlap E)} (hfits : ∀ o ∈ overlaps, o.Fits) (c : ℝ) :
    (∀ o ∈ overlaps, ∀ t : ℝ, (∃ other ∈ overlaps, other.Clears (t • o.axis)) → c ≤ ‖t • o.axis‖) ↔
      ∀ o ∈ overlaps, c ≤ o.forwards ∧ c ≤ o.backwards := by
  constructor
  · intro hshortest o ho
    have hfit := hfits o ho
    have hway : ∀ t, t = o.forwards ∨ t = -o.backwards → c ≤ |t| := fun t ht =>
      (hshortest o ho t ⟨o, ho, hfit.clears_smul_axis ht⟩).trans (hfit.norm_smul_axis_le t)
    constructor
    · rw [← abs_of_nonneg hfit.forwards]
      exact hway _ (.inl rfl)
    · rw [← abs_of_nonneg hfit.backwards, ← abs_neg]
      exact hway _ (.inr rfl)
  · rintro hall o ho t ⟨other, hother, hclears⟩
    exact (hfits other hother).le_norm_of_clears (hall other hother) hclears

end Overlap

end Lumos.WayOut

/-!
## Tight axes

An axis along which a finite set of vectors has length at least one can be turned until the
vectors of length exactly one leave it no freedom. Of two finite sets of points that some
axis separates, one that is tight is fixed by the points the sets end with along it.
-/
namespace Lumos.TightAxis

open SeparatingAxis
open scoped RealInnerProductSpace

variable {E : Type*} [NormedAddCommGroup E] [InnerProductSpace ℝ E]

/-- Along the axis all of the vectors have length at least one. -/
def Feasible (vectors : Finset E) (axis : E) : Prop := ∀ d ∈ vectors, 1 ≤ ⟪axis, d⟫

/-- Only the zero vector is orthogonal to all of them. -/
def Spans (vectors : Finset E) : Prop := ∀ u : E, (∀ d ∈ vectors, ⟪u, d⟫ = 0) → u = 0

open Classical in
/-- Those of length more than one. -/
noncomputable def slack (vectors : Finset E) (axis : E) : Finset E := vectors.filter fun d => 1 < ⟪axis, d⟫

/-- A direction in which no tight vector changes, and some vector gets shorter. -/
theorem exists_direction {vectors : Finset E} {axis : E} (hspans : Spans vectors)
    (hloose : ∃ u : E, u ≠ 0 ∧ ∀ d ∈ vectors, ⟪axis, d⟫ = 1 → ⟪u, d⟫ = 0) :
    ∃ u : E, (∀ d ∈ vectors, ⟪axis, d⟫ = 1 → ⟪u, d⟫ = 0) ∧ ∃ d ∈ vectors, ⟪u, d⟫ < 0 := by
  obtain ⟨u, hu, htight⟩ := hloose
  have hsome : ∃ d ∈ vectors, ⟪u, d⟫ ≠ 0 := by
    by_contra hnone
    push Not at hnone
    exact hu (hspans u hnone)
  obtain ⟨d, hd, hne⟩ := hsome
  cases lt_or_gt_of_ne hne with
  | inl hneg => exact ⟨u, htight, d, hd, hneg⟩
  | inr hpos =>
    refine ⟨-u, fun d hd h => ?_, d, hd, ?_⟩
    · rw [inner_neg_left, htight d hd h, neg_zero]
    · rw [inner_neg_left]
      exact neg_lt_zero.mpr hpos

/-- Turning the axis until one more vector is tight. -/
theorem exists_tighter {vectors : Finset E} {axis : E} (hspans : Spans vectors) (hfeasible : Feasible vectors axis)
    (hloose : ∃ u : E, u ≠ 0 ∧ ∀ d ∈ vectors, ⟪axis, d⟫ = 1 → ⟪u, d⟫ = 0) :
    ∃ axis', Feasible vectors axis' ∧ (slack vectors axis').card < (slack vectors axis).card := by
  classical
  obtain ⟨u, htight, d, hd, hneg⟩ := exists_direction hspans hloose
  -- how far the axis can be moved before this vector is tight
  let room : E → ℝ := fun d => (⟪axis, d⟫ - 1) / -⟪u, d⟫
  obtain ⟨first, hfirst, hleast⟩ := (vectors.filter fun d => ⟪u, d⟫ < 0).exists_min_image room
    ⟨d, Finset.mem_filter.mpr ⟨hd, hneg⟩⟩
  obtain ⟨hmem, hfirstNeg⟩ := Finset.mem_filter.mp hfirst
  have hroom : 0 ≤ room first := div_nonneg (sub_nonneg.mpr (hfeasible first hmem)) (neg_pos.mpr hfirstNeg).le
  have hmoved : ∀ d, ⟪axis + room first • u, d⟫ = ⟪axis, d⟫ + room first * ⟪u, d⟫ := by
    intro d
    rw [inner_add_left, real_inner_smul_left]
  have hfeasible' : Feasible vectors (axis + room first • u) := by
    intro d hd
    rw [hmoved]
    cases lt_or_ge ⟪u, d⟫ 0 with
    | inl hdNeg =>
      have hle := hleast d (Finset.mem_filter.mpr ⟨hd, hdNeg⟩)
      have hbound := (le_div_iff₀ (neg_pos.mpr hdNeg)).mp hle
      linarith
    | inr hdNonneg =>
      have hone := hfeasible d hd
      have hadd := mul_nonneg hroom hdNonneg
      linarith
  have hreached : ⟪axis + room first • u, first⟫ = 1 := by
    rw [hmoved]
    have hcancel : room first * -⟪u, first⟫ = ⟪axis, first⟫ - 1 :=
      div_mul_cancel₀ _ (neg_pos.mpr hfirstNeg).ne'
    linarith
  refine ⟨axis + room first • u, hfeasible', Finset.card_lt_card ?_⟩
  rw [Finset.ssubset_iff_of_subset]
  · refine ⟨first, ?_, ?_⟩
    · refine Finset.mem_filter.mpr ⟨hmem, lt_of_le_of_ne (hfeasible first hmem) fun hone => ?_⟩
      rw [htight first hmem hone.symm] at hfirstNeg
      exact lt_irrefl _ hfirstNeg
    · intro hslack
      have hlt := (Finset.mem_filter.mp hslack).2
      rw [hreached] at hlt
      exact lt_irrefl _ hlt
  · intro d hslack
    obtain ⟨hd, hlt⟩ := Finset.mem_filter.mp hslack
    refine Finset.mem_filter.mpr ⟨hd, lt_of_le_of_ne (hfeasible d hd) fun hone => ?_⟩
    rw [hmoved, htight d hd hone.symm, ← hone, mul_zero, add_zero] at hlt
    exact lt_irrefl _ hlt

/-- By induction on the number of vectors that are not tight. -/
theorem exists_tight {vectors : Finset E} (hspans : Spans vectors) {axis : E} (hfeasible : Feasible vectors axis) :
    ∃ axis', Feasible vectors axis' ∧
      ∀ u : E, (∀ d ∈ vectors, ⟪axis', d⟫ = 1 → ⟪u, d⟫ = 0) → u = 0 := by
  induction hcard : (slack vectors axis).card using Nat.strong_induction_on generalizing axis with
  | h card ih =>
    by_cases htight : ∀ u : E, (∀ d ∈ vectors, ⟪axis, d⟫ = 1 → ⟪u, d⟫ = 0) → u = 0
    · exact ⟨axis, hfeasible, htight⟩
    · push Not at htight
      obtain ⟨u, hu, hne⟩ := htight
      obtain ⟨axis', hfeasible', hless⟩ := exists_tighter hspans hfeasible ⟨u, hne, hu⟩
      exact ih _ (hcard ▸ hless) hfeasible' rfl

/-! ## Two sets of points -/

section Points

variable {s t : Set E}

open Classical in
/-- The vectors from one set to the other. -/
noncomputable def differences (hs : s.Finite) (ht : t.Finite) : Finset E :=
  (hs.toFinset ×ˢ ht.toFinset).image fun pair => pair.2 - pair.1

omit [InnerProductSpace ℝ E] in
theorem mem_differences {hs : s.Finite} {ht : t.Finite} {d : E} :
    d ∈ differences hs ht ↔ ∃ x ∈ s, ∃ y ∈ t, y - x = d := by
  simp only [differences, Finset.mem_image, Finset.mem_product, Set.Finite.mem_toFinset, Prod.exists]
  constructor
  · rintro ⟨x, y, ⟨hx, hy⟩, rfl⟩
    exact ⟨x, hx, y, hy, rfl⟩
  · rintro ⟨x, hx, y, hy, rfl⟩
    exact ⟨x, y, ⟨hx, hy⟩, rfl⟩

/-- An axis along which the first set ends before the second begins, by at least one, if it is
long enough. -/
theorem exists_feasible (hs : s.Finite) (ht : t.Finite) {axis : E}
    (haxis : ∀ x ∈ s, ∀ y ∈ t, ⟪axis, x⟫ < ⟪axis, y⟫) : ∃ axis', Feasible (differences hs ht) axis' := by
  by_cases hempty : (differences hs ht).Nonempty
  · obtain ⟨least, hleast, hmin⟩ := (differences hs ht).exists_min_image (fun d => ⟪axis, d⟫) hempty
    have hpos : 0 < ⟪axis, least⟫ := by
      obtain ⟨x, hx, y, hy, rfl⟩ := mem_differences.mp hleast
      rw [inner_sub_right]
      exact sub_pos.mpr (haxis x hx y hy)
    refine ⟨⟪axis, least⟫⁻¹ • axis, fun d hd => ?_⟩
    rw [real_inner_smul_left, ← inv_mul_cancel₀ hpos.ne']
    exact mul_le_mul_of_nonneg_left (hmin d hd) (inv_pos.mpr hpos).le
  · exact ⟨axis, fun d hd => absurd ⟨d, hd⟩ hempty⟩

/-- Of two finite sets one of which is not in one plane, an axis that separates them is fixed
by the points that are last and first along it. -/
theorem exists_fixed (hs : s.Finite) (ht : t.Finite) (hspanning : Spanning s) (hsNonempty : s.Nonempty)
    (htNonempty : t.Nonempty) {axis : E} (haxis : ∀ x ∈ s, ∀ y ∈ t, ⟪axis, x⟫ < ⟪axis, y⟫) :
    ∃ m : E, (∀ x ∈ s, ∀ y ∈ t, ⟪m, x⟫ < ⟪m, y⟫) ∧
      ∀ u : E, (∀ x ∈ ends m s, ∀ x' ∈ ends m s, ⟪u, x⟫ = ⟪u, x'⟫) →
        (∀ y ∈ ends (-m) t, ∀ y' ∈ ends (-m) t, ⟪u, y⟫ = ⟪u, y'⟫) → ∃ c : ℝ, u = c • m := by
  obtain ⟨x₀, hx₀⟩ := hsNonempty
  obtain ⟨y₀, hy₀⟩ := htNonempty
  have hspans : Spans (differences hs ht) := by
    intro u hu
    have hsame : ∀ x ∈ s, ⟪u, x⟫ = ⟪u, y₀⟫ := by
      intro x hx
      have hzero := hu (y₀ - x) (mem_differences.mpr ⟨x, hx, y₀, hy₀, rfl⟩)
      rw [inner_sub_right] at hzero
      exact (sub_eq_zero.mp hzero).symm
    exact hspanning u fun x hx x' hx' => (hsame x hx).trans (hsame x' hx').symm
  obtain ⟨axis', hfeasible'⟩ := exists_feasible hs ht haxis
  obtain ⟨m, hfeasible, htight⟩ := exists_tight hspans hfeasible'
  have hapart : ∀ x ∈ s, ∀ y ∈ t, ⟪m, x⟫ + 1 ≤ ⟪m, y⟫ := by
    intro x hx y hy
    have hone := hfeasible (y - x) (mem_differences.mpr ⟨x, hx, y, hy, rfl⟩)
    rw [inner_sub_right] at hone
    linarith
  refine ⟨m, fun x hx y hy => lt_of_lt_of_le (lt_add_one _) (hapart x hx y hy), fun u hus hut => ?_⟩
  -- a tight pair is of a last and a first point
  have hpair : ∀ x ∈ s, ∀ y ∈ t, ⟪m, y - x⟫ = 1 → x ∈ ends m s ∧ y ∈ ends (-m) t := by
    intro x hx y hy hone
    rw [inner_sub_right] at hone
    refine ⟨⟨hx, fun x' hx' => ?_⟩, hy, fun y' hy' => ?_⟩
    · have hle := hapart x' hx' y hy
      linarith
    · have hle := hapart x hx y' hy'
      rw [inner_neg_left, inner_neg_left]
      linarith
  have hm : m ≠ 0 := by
    rintro rfl
    have hle := hapart x₀ hx₀ y₀ hy₀
    rw [inner_zero_left, inner_zero_left] at hle
    linarith
  have hsome : ∃ x₁ ∈ s, ∃ y₁ ∈ t, ⟪m, y₁ - x₁⟫ = 1 := by
    by_contra hnone
    push Not at hnone
    apply hm
    apply htight
    intro d hd hone
    obtain ⟨x, hx, y, hy, rfl⟩ := mem_differences.mp hd
    exact absurd hone (hnone x hx y hy)
  obtain ⟨x₁, hx₁, y₁, hy₁, hone₁⟩ := hsome
  obtain ⟨hxEnd₁, hyEnd₁⟩ := hpair x₁ hx₁ y₁ hy₁ hone₁
  refine ⟨⟪u, y₁ - x₁⟫, sub_eq_zero.mp (htight _ fun d hd hone => ?_)⟩
  obtain ⟨x, hx, y, hy, rfl⟩ := mem_differences.mp hd
  obtain ⟨hxEnd, hyEnd⟩ := hpair x hx y hy hone
  rw [inner_sub_left, real_inner_smul_left, hone, mul_one, inner_sub_right, inner_sub_right,
    hus x hxEnd x₁ hxEnd₁, hut y hyEnd y₁ hyEnd₁, sub_self]

/-- Polytopes that are disjoint are separated along some axis. -/
theorem exists_axis [CompleteSpace E] (hs : s.Finite) (ht : t.Finite)
    (hdisjoint : Disjoint (convexHull ℝ s) (convexHull ℝ t)) :
    ∃ axis : E, ∀ x ∈ s, ∀ y ∈ t, ⟪axis, x⟫ < ⟪axis, y⟫ := by
  have hcompact : IsCompact (convexHull ℝ s) := hs.isCompact_convexHull ℝ
  have hclosed : IsClosed (convexHull ℝ t) := ht.isClosed_convexHull ℝ
  obtain ⟨f, a, b, hfirst, hab, hsecond⟩ := geometric_hahn_banach_compact_closed (convex_convexHull ℝ s)
    hcompact (convex_convexHull ℝ t) hclosed hdisjoint
  refine ⟨(InnerProductSpace.toDual ℝ E).symm f, fun x hx y hy => ?_⟩
  rw [InnerProductSpace.toDual_symm_apply, InnerProductSpace.toDual_symm_apply]
  exact (hfirst x (subset_convexHull ℝ s hx)).trans (hab.trans (hsecond y (subset_convexHull ℝ t hy)))

end Points

end Lumos.TightAxis
