import Lumos.Library.SeparatingAxis
import Lumos.Physics.CollisionDetection
import Lumos.Physics.Facets

/-!
# Which axes are enough

Solids that have nothing in common are clear of each other along a normal of a face, along
the cross product of two edges, or along the axis from an edge to the centre of a sphere.
-/
namespace Lumos.Physics.CollisionDetection

open Maths FloatArithmetic SeparatingAxis TightAxis
open scoped RealInnerProductSpace

/-! ## Two polyhedra -/

/-- An axis that is orthogonal to a vector, which need not be. -/
theorem exists_orthogonal {e : Vector3 ℝ} (he : e ≠ 0) :
    ∃ u v : Vector3 ℝ, u ≠ 0 ∧ v ≠ 0 ∧ u.dotProduct e = 0 ∧ v.dotProduct e = 0 ∧ u.dotProduct v = 0 := by
  have hexists : ∃ u : Vector3 ℝ, u ≠ 0 ∧ u.dotProduct e = 0 := by
    by_cases hxy : e.x = 0 ∧ e.y = 0
    · refine ⟨⟨1, 0, 0⟩, fun h => one_ne_zero (congrArg Vector3.x h), ?_⟩
      simp [Vector3.dotProduct_real, hxy.1]
    · refine ⟨⟨-e.y, e.x, 0⟩, fun h => hxy ?_, ?_⟩
      · have hx := congrArg Vector3.y h
        have hy := congrArg Vector3.x h
        exact ⟨hx, neg_eq_zero.mp hy⟩
      · simp only [Vector3.dotProduct_real]
        ring
  obtain ⟨u, hu, horthogonal⟩ := hexists
  refine ⟨u, e.crossProduct u, hu, ?_, horthogonal, Vector3.dotProduct_crossProduct_left e u, ?_⟩
  · rw [Ne, ← Vector3.lengthSquared_eq_zero, Vector3.lengthSquared_crossProduct]
    have hcomm : e.dotProduct u = u.dotProduct e := by
      simp only [Vector3.dotProduct_real]
      ring
    rw [hcomm, horthogonal, zero_pow two_ne_zero, sub_zero]
    exact mul_ne_zero (fun h => he (Vector3.lengthSquared_eq_zero.mp h))
      fun h => hu (Vector3.lengthSquared_eq_zero.mp h)
  · have hcomm : u.dotProduct (e.crossProduct u) = (e.crossProduct u).dotProduct u := by
      simp only [Vector3.dotProduct_real]
      ring
    rw [hcomm, Vector3.dotProduct_crossProduct_right]

/-- An axis is constant on a subset of an edge that it is orthogonal to. -/
theorem inner_eq_of_edge {edge : CollisionEdge ℝ} {t : Set Space} (ht : t ⊆ {edge.posA.point, edge.posB.point})
    {u : Vector3 ℝ} (hu : u.dotProduct (edge.posB - edge.posA) = 0) :
    ∀ x ∈ t, ∀ y ∈ t, ⟪u.point, x⟫ = ⟪u.point, y⟫ := by
  have hedge : ⟪u.point, edge.posB.point⟫ = ⟪u.point, edge.posA.point⟫ := by
    rw [← sub_eq_zero, ← inner_sub_right, ← Vector3.point_sub, Vector3.inner_point, hu]
  have hconstant : ∀ x ∈ t, ⟪u.point, x⟫ = ⟪u.point, edge.posA.point⟫ := by
    intro x hx
    cases ht hx with
    | inl h => rw [h]
    | inr h => rw [h, hedge]
  exact fun x hx y hy => (hconstant x hx).trans (hconstant y hy).symm

/-- Vectors that are orthogonal are not both multiples of one. -/
theorem not_both_multiples {u v a : Vector3 ℝ} (hu : u ≠ 0) (hv : v ≠ 0) (huv : u.dotProduct v = 0)
    (ha : ∃ c : ℝ, u.point = c • a.point) (hb : ∃ c : ℝ, v.point = c • a.point) : False := by
  obtain ⟨c, hc⟩ := ha
  obtain ⟨d, hd⟩ := hb
  have hne : ∀ {w : Vector3 ℝ}, w ≠ 0 → w.point ≠ 0 := by
    intro w hw hzero
    exact hw (Vector3.point_injective (hzero.trans Vector3.point_zero.symm))
  have hu' := hne hu
  have hv' := hne hv
  rw [hc, smul_ne_zero_iff] at hu'
  rw [hd, smul_ne_zero_iff] at hv'
  rw [← Vector3.inner_point, hc, hd, real_inner_smul_left, real_inner_smul_right, real_inner_self_eq_norm_sq] at huv
  have hnorm : ‖a.point‖ ^ 2 ≠ 0 := pow_ne_zero 2 (norm_ne_zero_iff.mpr hu'.2)
  exact mul_ne_zero hu'.1 (mul_ne_zero hv'.1 hnorm) huv

/-- An axis that the solids are clear of each other along, or any that is parallel to it. -/
theorem clear_of_mul {a n : Vector3 ℝ} {c : ℝ} {s t : Set Space} (ha : a ≠ 0) (hn : a = n * c)
    (hclear : Clear a.point s t) : Clear n.point s t := by
  have hc : c ≠ 0 := by
    rintro rfl
    apply ha
    apply Vector3.point_injective
    rw [hn, Vector3.point_mul, zero_smul, Vector3.point_zero]
  rw [hn, Vector3.point_mul] at hclear
  exact hclear.of_smul hc

section Polyhedra

variable {vertices1 vertices2 : Set Space} {normals1 normals2 : List (Vector3 ℝ)}
  {edges1 edges2 : List (CollisionEdge ℝ)}

/-- The separating axis theorem for two polyhedra. -/
theorem Faceted.exists_clear (h1 : Faceted vertices1 normals1 edges1) (h2 : Faceted vertices2 normals2 edges2)
    (hdisjoint : Disjoint (convexHull ℝ vertices1) (convexHull ℝ vertices2)) :
    ∃ n : Vector3 ℝ, (n ∈ normals1 ∨ n ∈ normals2 ∨ ∃ edge1 ∈ edges1, ∃ edge2 ∈ edges2,
        n = (edge1.posB - edge1.posA).crossProduct (edge2.posB - edge2.posA)) ∧
      Clear n.point vertices1 vertices2 := by
  obtain ⟨axis, haxis⟩ := exists_axis h1.finite h2.finite hdisjoint
  obtain ⟨m, hm, hfixed⟩ := exists_fixed h1.finite h2.finite h1.spanning h1.nonempty h2.nonempty haxis
  obtain ⟨a, rfl⟩ : ∃ a : Vector3 ℝ, a.point = m := ⟨Vector3.ofPoint m, Vector3.point_ofPoint m⟩
  have ha : a ≠ 0 := by
    rintro rfl
    obtain ⟨x, hx⟩ := h1.nonempty
    obtain ⟨y, hy⟩ := h2.nonempty
    have hlt := hm x hx y hy
    rw [Vector3.point_zero, inner_zero_left, inner_zero_left] at hlt
    exact lt_irrefl _ hlt
  have hclear : Clear a.point vertices1 vertices2 := Or.inl hm
  cases h1.ending a with
  | inl hface =>
    obtain ⟨n, hn, c, hparallel⟩ := hface
    exact ⟨n, Or.inl hn, clear_of_mul ha hparallel hclear⟩
  | inr hedge =>
    obtain ⟨edge1, hedge1, hends1⟩ := hedge
    cases h2.ending (-a) with
    | inl hface =>
      obtain ⟨n, hn, c, hparallel⟩ := hface
      have hparallel' : a = n * -c := by
        apply Vector3.point_injective
        rw [Vector3.point_mul, neg_smul, ← Vector3.point_mul, ← hparallel, Vector3.point_neg, neg_neg]
      exact ⟨n, Or.inr (Or.inl hn), clear_of_mul ha hparallel' hclear⟩
    | inr hedge =>
      obtain ⟨edge2, hedge2, hends2⟩ := hedge
      rw [Vector3.point_neg] at hends2
      have hmultiple : ∀ u : Vector3 ℝ, u.dotProduct (edge1.posB - edge1.posA) = 0 →
          u.dotProduct (edge2.posB - edge2.posA) = 0 → ∃ c : ℝ, u.point = c • a.point :=
        fun u hu1 hu2 => hfixed u.point (inner_eq_of_edge hends1 hu1) (inner_eq_of_edge hends2 hu2)
      have hcross : (edge1.posB - edge1.posA).crossProduct (edge2.posB - edge2.posA) ≠ 0 := by
        intro hzero
        -- two axes that are orthogonal to each other and to both edges
        obtain ⟨k, hk⟩ := Vector3.exists_mul_of_crossProduct (h2.edge_ne edge2 hedge2) hzero
        obtain ⟨u, v, hu, hv, hu2, hv2, huv⟩ := exists_orthogonal (h2.edge_ne edge2 hedge2)
        have hfirst : ∀ w : Vector3 ℝ, w.dotProduct (edge2.posB - edge2.posA) = 0 →
            w.dotProduct (edge1.posB - edge1.posA) = 0 := by
          intro w hw
          rw [hk, ← Vector3.inner_point, Vector3.point_mul, real_inner_smul_right, Vector3.inner_point, hw, mul_zero]
        exact not_both_multiples hu hv huv (hmultiple u (hfirst u hu2) hu2) (hmultiple v (hfirst v hv2) hv2)
      obtain ⟨c, hc⟩ := hmultiple _ (Vector3.dotProduct_crossProduct_left _ _)
        (Vector3.dotProduct_crossProduct_right (edge1.posB - edge1.posA) (edge2.posB - edge2.posA))
      refine ⟨_, Or.inr (Or.inr ⟨edge1, hedge1, edge2, hedge2, rfl⟩), ?_⟩
      have hne : c ≠ 0 := by
        rintro rfl
        rw [zero_smul, ← Vector3.point_zero] at hc
        exact hcross (Vector3.point_injective hc)
      rw [hc]
      have hscaled : Clear (c⁻¹ • c • a.point) vertices1 vertices2 := by
        rw [smul_smul, inv_mul_cancel₀ hne, one_smul]
        exact hclear
      exact hscaled.of_smul (inv_ne_zero hne)

end Polyhedra

/-! ## A polyhedron and a sphere -/

theorem closestPointOnEdge_real (target : Vector3 ℝ) (edge : CollisionEdge ℝ) :
    closestPointOnEdge target edge =
      if (target - edge.posA).dotProduct (edge.posB - edge.posA) / (edge.posB - edge.posA).lengthSquared < 0 then
        edge.posA
      else if 1 < (target - edge.posA).dotProduct (edge.posB - edge.posA) /
          (edge.posB - edge.posA).lengthSquared then edge.posB
      else edge.posA + (edge.posB - edge.posA) * ((target - edge.posA).dotProduct (edge.posB - edge.posA) /
        (edge.posB - edge.posA).lengthSquared) := by
  unfold closestPointOnEdge
  simp only [lt_real]
  rfl

/-- A point of the edge that the edge recedes from is the closest one. -/
theorem closestPointOnEdge_eq {target : Vector3 ℝ} {edge : CollisionEdge ℝ} (hne : edge.posB - edge.posA ≠ 0) {t : ℝ}
    (ht : 0 ≤ t ∧ t ≤ 1) {q : Vector3 ℝ} (hq : q = edge.posA + (edge.posB - edge.posA) * t)
    (hA : (target - q).dotProduct (edge.posA - q) ≤ 0) (hB : (target - q).dotProduct (edge.posB - q) ≤ 0) :
    closestPointOnEdge target edge = q := by
  have hpos : 0 < (edge.posB - edge.posA).lengthSquared :=
    lt_of_le_of_ne (Vector3.lengthSquared_nonneg _) fun h => hne (Vector3.lengthSquared_eq_zero.mp h.symm)
  have hdistance : (target - edge.posA).dotProduct (edge.posB - edge.posA) / (edge.posB - edge.posA).lengthSquared =
      t + (target - q).dotProduct (edge.posB - edge.posA) / (edge.posB - edge.posA).lengthSquared := by
    rw [eq_comm, ← sub_eq_zero]
    field_simp
    rw [hq]
    simp only [Vector3.dotProduct_real, Vector3.lengthSquared_real, Vector3.sub_x, Vector3.sub_y, Vector3.sub_z,
      Vector3.add_x, Vector3.add_y, Vector3.add_z, Vector3.mul_x, Vector3.mul_y, Vector3.mul_z]
    ring
  have hA' : (target - q).dotProduct (edge.posA - q) = -(t * (target - q).dotProduct (edge.posB - edge.posA)) := by
    rw [hq]
    simp only [Vector3.dotProduct_real, Vector3.sub_x, Vector3.sub_y, Vector3.sub_z, Vector3.add_x, Vector3.add_y,
      Vector3.add_z, Vector3.mul_x, Vector3.mul_y, Vector3.mul_z]
    ring
  have hB' : (target - q).dotProduct (edge.posB - q) = (1 - t) * (target - q).dotProduct (edge.posB - edge.posA) := by
    rw [hq]
    simp only [Vector3.dotProduct_real, Vector3.sub_x, Vector3.sub_y, Vector3.sub_z, Vector3.add_x, Vector3.add_y,
      Vector3.add_z, Vector3.mul_x, Vector3.mul_y, Vector3.mul_z]
    ring
  rw [hA'] at hA
  rw [hB'] at hB
  rw [closestPointOnEdge_real, hdistance]
  rcases lt_trichotomy ((target - q).dotProduct (edge.posB - edge.posA)) 0 with hneg | hzero | hpositive
  · have htZero : t = 0 := by nlinarith
    have hlt := div_neg_of_neg_of_pos hneg hpos
    rw [if_pos (by linarith), hq, htZero]
    ext <;> simp
  · rw [hzero, zero_div, add_zero, if_neg (not_lt.mpr ht.1), if_neg (not_lt.mpr ht.2), hq]
  · have htOne : t = 1 := by nlinarith
    have hlt := div_pos hpositive hpos
    rw [if_neg (by linarith), if_pos (by linarith), hq, htOne]
    ext <;> simp

/-- The separating axis theorem for a polyhedron and a sphere. -/
theorem Faceted.exists_clear_ball {vertices : Set Space} {normals : List (Vector3 ℝ)}
    {edges : List (CollisionEdge ℝ)} (h : Faceted vertices normals edges) {centre : Vector3 ℝ} {radius : ℝ}
    (hradius : 0 ≤ radius)
    (hdisjoint : Disjoint (convexHull ℝ vertices) (Metric.closedBall centre.point radius)) :
    ∃ n : Vector3 ℝ, (n ∈ normals ∨ ∃ edge ∈ edges, n = centre - closestPointOnEdge centre edge) ∧
      Clear n.point (convexHull ℝ vertices) (Metric.closedBall centre.point radius) := by
  have hclosed : IsClosed (convexHull ℝ vertices) := h.finite.isClosed_convexHull ℝ
  obtain ⟨q', hq', hends, hclear⟩ := exists_closest (convex_convexHull ℝ vertices) hclosed
    (convexHull_nonempty_iff.mpr h.nonempty) hradius hdisjoint
  obtain ⟨q, rfl⟩ : ∃ q : Vector3 ℝ, q.point = q' := ⟨Vector3.ofPoint q', Vector3.point_ofPoint q'⟩
  rw [← Vector3.point_sub] at hends hclear
  have hne : centre - q ≠ 0 := by
    intro hzero
    have hself : centre.point = q.point := by
      rw [← sub_eq_zero, ← Vector3.point_sub, hzero, Vector3.point_zero]
    apply Set.disjoint_left.mp hdisjoint hq'
    rw [← hself]
    exact Metric.mem_closedBall_self hradius
  cases h.ending (centre - q) with
  | inl hface =>
    obtain ⟨n, hn, c, hparallel⟩ := hface
    exact ⟨n, Or.inl hn, clear_of_mul hne hparallel hclear⟩
  | inr hedge =>
    obtain ⟨edge, hmem, hsub⟩ := hedge
    have hface : q.point ∈ convexHull ℝ {edge.posA.point, edge.posB.point} :=
      convexHull_mono hsub (mem_convexHull_ends hq' fun y hy => hends y (subset_convexHull ℝ _ hy))
    rw [convexHull_pair, segment_eq_image'] at hface
    obtain ⟨t, ht, hqt⟩ := hface
    have hqEdge : q = edge.posA + (edge.posB - edge.posA) * t := by
      apply Vector3.point_injective
      rw [Vector3.point_add, Vector3.point_mul, Vector3.point_sub]
      exact hqt.symm
    have hrecedes : ∀ v : Vector3 ℝ, v.point ∈ vertices → (centre - q).dotProduct (v - q) ≤ 0 := by
      intro v hv
      rw [← Vector3.inner_point, Vector3.point_sub v, inner_sub_right]
      exact sub_nonpos.mpr (hends _ (subset_convexHull ℝ _ hv))
    obtain ⟨hA, hB⟩ := h.edge_mem edge hmem
    have hclosest := closestPointOnEdge_eq (h.edge_ne edge hmem) ht hqEdge (hrecedes _ hA) (hrecedes _ hB)
    refine ⟨centre - q, Or.inr ⟨edge, hmem, ?_⟩, hclear⟩
    rw [hclosest]

end Lumos.Physics.CollisionDetection
