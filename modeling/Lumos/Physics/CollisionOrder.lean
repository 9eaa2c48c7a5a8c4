import Lumos.Physics.FirstChecks

/-!
# Which of two bodies comes first

The axes that are tested, and on which side of the first body the second one may touch it,
depend on the order in which the bodies are given. For two spheres it does not matter.
-/
namespace Lumos.Physics.CollisionDetection

open Maths FloatArithmetic

section Order

variable (obj1 obj2 : Pose ℝ) (p1 p2 : ShapeParameters ℝ)

/-- The projections have nothing in common. -/
def Apart (axis : Vector3 ℝ) : Prop :=
  p1.high obj1 axis < p2.low obj2 axis ∨ p2.high obj2 axis < p1.low obj1 axis

/-- The projection of the second body is more than a point and ends where that of the first one
begins. -/
def EndsAtFirst (axis : Vector3 ℝ) : Prop :=
  p2.low obj2 axis < p2.high obj2 axis ∧ p2.high obj2 axis = p1.low obj1 axis

/-- Both orders have an axis of their own along which the bodies are apart or the one given
second ends at the other, or neither has. -/
def SameOnBoth : Prop :=
  (∃ axis ∈ checkedAxes obj1 obj2 p1 p2, Apart obj1 obj2 p1 p2 axis ∨ EndsAtFirst obj1 obj2 p1 p2 axis) ↔
    ∃ axis ∈ checkedAxes obj2 obj1 p2 p1, Apart obj2 obj1 p2 p1 axis ∨ EndsAtFirst obj2 obj1 p2 p1 axis

/-- With a sphere both orders test the same axes: the bodies are apart along one of these, or
if either of them ends at the other so does the other at the first. -/
def TouchBothWays : Prop :=
  (∃ axis ∈ checkedAxes obj1 obj2 p1 p2, Apart obj1 obj2 p1 p2 axis) ∨
    ((∃ axis ∈ checkedAxes obj1 obj2 p1 p2, EndsAtFirst obj1 obj2 p1 p2 axis) ↔
      ∃ axis ∈ checkedAxes obj1 obj2 p1 p2, EndsAtFirst obj2 obj1 p2 p1 axis)

/-- When the order does not matter, by the function that the table has for the shapes. -/
def SameEitherWay : Prop :=
  match dispatched p1 p2 with
  | some .polyhedron => SameOnBoth obj1 obj2 p1 p2
  | some .polyhedronSphere =>
    if p1.data.type = 2 ∨ p2.data.type = 2 then TouchBothWays obj1 obj2 p1 p2 else SameOnBoth obj1 obj2 p1 p2
  | some .sphere | some .invalid | none => True

variable {obj1 obj2 p1 p2} {axis : Vector3 ℝ}

theorem apart_comm : Apart obj2 obj1 p2 p1 axis ↔ Apart obj1 obj2 p1 p2 axis := or_comm

/-- The two cases in which an axis tells the bodies apart. -/
theorem checkCollisionAxis_eq_none_iff_apart (h1 : p1.low obj1 axis ≤ p1.high obj1 axis)
    (h2 : p2.low obj2 axis ≤ p2.high obj2 axis) :
    checkCollisionAxis axis obj1 obj2 p1 p2 = none ↔
      Apart obj1 obj2 p1 p2 axis ∨ EndsAtFirst obj1 obj2 p1 p2 axis := by
  rw [checkCollisionAxis_eq_none_iff_before h1]
  constructor
  · rintro (hlt | ⟨hlt, hle⟩)
    · exact .inl (.inl hlt)
    · obtain hends | heq := hle.lt_or_eq
      · exact .inl (.inr hends)
      · exact .inr ⟨heq ▸ hlt, heq⟩
  · rintro ((hlt | hlt) | ⟨hlt, heq⟩)
    · exact .inl hlt
    · exact .inr ⟨h2.trans_lt hlt, hlt.le⟩
    · exact .inr ⟨heq ▸ hlt, heq.le⟩

/-! ## Two spheres -/

theorem normalize_neg (v : Vector3 ℝ) : (-v).normalize = -v.normalize := by
  have hlength : (-v).lengthSquared = v.lengthSquared := by
    simp only [Vector3.lengthSquared_real, Vector3.neg_x, Vector3.neg_y, Vector3.neg_z, neg_mul_neg]
  unfold Vector3.normalize
  rw [hlength]
  split
  · ext <;> simp
  · rfl

/-- The axis of two spheres points from the first to the second. -/
theorem dotProduct_axis_nonneg (a b : Vector3 ℝ) :
    (b - a).normalize.dotProduct a ≤ (b - a).normalize.dotProduct b := by
  obtain ⟨s, hs, hnormalize⟩ := (b - a).exists_normalize
  have hnonneg := mul_nonneg (b - a).lengthSquared_nonneg hs.le
  have hdiff : ((b - a) * s).dotProduct b - ((b - a) * s).dotProduct a = (b - a).lengthSquared * s := by
    simp only [Vector3.dotProduct_real, Vector3.lengthSquared_real, Vector3.mul_x, Vector3.mul_y, Vector3.mul_z,
      Vector3.sub_x, Vector3.sub_y, Vector3.sub_z]
    ring
  rw [hnormalize]
  linarith

/-- Of two spheres only the end of the first one and the beginning of the second one count. -/
theorem sphere_eq_none_iff {r1 r2 : ℝ} (h1 : Proper p1) (h2 : Proper p2) (hdata1 : p1.data = .sphere r1)
    (hdata2 : p2.data = .sphere r2) :
    checkCollisionAxis (obj2.position - obj1.position).normalize obj1 obj2 p1 p2 = none ↔
      (obj2.position - obj1.position).normalize.lengthSquared * (r1 + r2) <
        (obj2.position - obj1.position).normalize.dotProduct (obj2.position - obj1.position) := by
  have hforward := dotProduct_axis_nonneg obj1.position obj2.position
  generalize (obj2.position - obj1.position).normalize = axis at hforward ⊢
  obtain ⟨hlow1, hhigh1⟩ := low_of_radius h1.toWellMade (.inl hdata1) obj1 axis
  obtain ⟨hlow2, hhigh2⟩ := low_of_radius h2.toWellMade (.inl hdata2) obj2 axis
  have hreach1 := mul_nonneg axis.lengthSquared_nonneg (h1.sphere r1 hdata1)
  have hreach2 := mul_nonneg axis.lengthSquared_nonneg (h2.sphere r2 hdata2)
  have hdiff : axis.dotProduct (obj2.position - obj1.position) =
      axis.dotProduct obj2.position - axis.dotProduct obj1.position := by
    simp only [Vector3.dotProduct_real, Vector3.sub_x, Vector3.sub_y, Vector3.sub_z]
    ring
  rw [checkCollisionAxis_eq_none_iff_before (by linarith), hlow1, hhigh1, hlow2, hhigh2, hdiff, mul_add]
  constructor
  · rintro (hlt | ⟨hlt, hle⟩)
    · linarith
    · linarith
  · intro hlt
    exact .inl (by linarith)

/-- Turned around, the axis is that of the other order. -/
theorem sphere_comm {r1 r2 : ℝ} (h1 : Proper p1) (h2 : Proper p2) (hdata1 : p1.data = .sphere r1)
    (hdata2 : p2.data = .sphere r2) :
    checkCollisionAxis (obj1.position - obj2.position).normalize obj2 obj1 p2 p1 = none ↔
      checkCollisionAxis (obj2.position - obj1.position).normalize obj1 obj2 p1 p2 = none := by
  have hneg : obj1.position - obj2.position = -(obj2.position - obj1.position) := by
    ext <;> simp
  rw [sphere_eq_none_iff h1 h2 hdata1 hdata2, sphere_eq_none_iff h2 h1 hdata2 hdata1, hneg, normalize_neg]
  generalize (obj2.position - obj1.position).normalize = axis
  have hlength : (-axis).lengthSquared = axis.lengthSquared := by
    simp only [Vector3.lengthSquared_real, Vector3.neg_x, Vector3.neg_y, Vector3.neg_z, neg_mul_neg]
  have hdot : (-axis).dotProduct (-(obj2.position - obj1.position)) =
      axis.dotProduct (obj2.position - obj1.position) := by
    simp only [Vector3.dotProduct_real, Vector3.neg_x, Vector3.neg_y, Vector3.neg_z, neg_mul_neg]
  rw [hlength, hdot, add_comm r2 r1]

/-! ## Any two bodies -/

theorem type_eq_two_iff {K : Type} (data : ShapeData K) : data.type = 2 ↔ ∃ radius, data = .sphere radius := by
  cases data <;> simp [ShapeData.type]

/-- The function for spheres is that of two spheres only. -/
theorem dispatched_sphere (h : dispatched p1 p2 = some .sphere) :
    (∃ r1, p1.data = .sphere r1) ∧ ∃ r2, p2.data = .sphere r2 := by
  rw [← type_eq_two_iff, ← type_eq_two_iff]
  unfold dispatched at h
  generalize p1.data = data1 at h
  generalize p2.data = data2 at h
  cases data1 <;> cases data2 <;> first | exact ⟨rfl, rfl⟩ | simp [ShapeData.type, collisionCheckFunctions] at h

/-- With one sphere the order does not change the axes. -/
theorem checkedAxes_comm (hfunction : dispatched p1 p2 = some .polyhedronSphere)
    (hsphere : p1.data.type = 2 ∨ p2.data.type = 2) : checkedAxes obj2 obj1 p2 p1 = checkedAxes obj1 obj2 p1 p2 := by
  have hboth : ¬ (p1.data.type = 2 ∧ p2.data.type = 2) := by
    rintro ⟨ht1, ht2⟩
    rw [dispatched, ht1, ht2] at hfunction
    cases hfunction
  have hfunction' := hfunction
  rw [← dispatched_comm] at hfunction'
  simp only [checkedAxes, hfunction, hfunction']
  obtain ht1 | ht2 := hsphere
  · rw [if_pos ht1, if_neg fun ht2 => hboth ⟨ht1, ht2⟩]
  · rw [if_pos ht2, if_neg fun ht1 => hboth ⟨ht1, ht2⟩]

/-- Bodies that there is a function for are not reported along one of the axes. -/
theorem not_reported_iff (h1 : Proper p1) (h2 : Proper p2) (hobj1 : obj1.orientation.IsRotation)
    (hobj2 : obj2.orientation.IsRotation) (hnone : dispatched p1 p2 ≠ none)
    (hinvalid : dispatched p1 p2 ≠ some .invalid) :
    ¬ Reported obj1 obj2 p1 p2 ↔
      ∃ axis ∈ checkedAxes obj1 obj2 p1 p2, Apart obj1 obj2 p1 p2 axis ∨ EndsAtFirst obj1 obj2 p1 p2 axis := by
  have hnear := nearUnit_checkedAxes h1.toWellMade h2.toWellMade hobj1 hobj2
  have haxis : ∀ axis ∈ checkedAxes obj1 obj2 p1 p2, checkCollisionAxis axis obj1 obj2 p1 p2 = none ↔
      Apart obj1 obj2 p1 p2 axis ∨ EndsAtFirst obj1 obj2 p1 p2 axis := fun axis haxis =>
    checkCollisionAxis_eq_none_iff_apart (low_le_high h1 hobj1 (hnear axis haxis))
      (low_le_high h2 hobj2 (hnear axis haxis))
  rw [reported_iff]
  constructor
  · intro hnot
    by_contra hnever
    push Not at hnever
    apply hnot
    refine ⟨⟨hnone, hinvalid⟩, fun axis hmem hseparating => ?_⟩
    exact not_or.mpr (hnever axis hmem) ((haxis axis hmem).mp hseparating)
  · rintro ⟨axis, hmem, hends⟩ ⟨-, hall⟩
    exact hall axis hmem ((haxis axis hmem).mpr hends)

theorem not_reported_of_undispatched (h : dispatched p1 p2 = none ∨ dispatched p1 p2 = some .invalid) :
    ¬ Reported obj1 obj2 p1 p2 := by
  rw [reported_iff]
  rintro ⟨⟨hnone, hinvalid⟩, -⟩
  exact h.elim hnone hinvalid

/-- Where the order does not change the axes, the axes along which the bodies are apart are the
same as well. -/
theorem sameOnBoth_iff (h : checkedAxes obj2 obj1 p2 p1 = checkedAxes obj1 obj2 p1 p2) :
    SameOnBoth obj1 obj2 p1 p2 ↔ TouchBothWays obj1 obj2 p1 p2 := by
  rw [SameOnBoth, TouchBothWays, h]
  simp only [apart_comm, and_or_left, exists_or]
  by_cases hapart : ∃ axis ∈ checkedAxes obj1 obj2 p1 p2, Apart obj1 obj2 p1 p2 axis
  · simp [hapart]
  · simp [hapart]

end Order

end Lumos.Physics.CollisionDetection
