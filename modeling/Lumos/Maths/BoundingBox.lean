import Mathlib.Algebra.Order.Field.Rat
import Mathlib.Order.Defs.LinearOrder
import Lumos.Maths.Matrix4

/-!
# `BoundingBox`

Boxes over any linear order with some addition and some halving: nothing is asked of
them, so that a sum may be rounded or overflow.
-/
namespace Lumos.Maths

/-- The numbers of a box, without a NaN. -/
class Coordinate (C : Type) extends LinearOrder C, Add C where
  /-- `M_INFINITY` -/
  infinity : C
  /-- `-M_INFINITY` -/
  negInfinity : C
  /-- `* 0.5f` -/
  half : C → C

/-- Rational coordinates, the largest `float` standing in for infinity. -/
instance : Coordinate ℚ where
  infinity := 340282346638528859811704183484516925440
  negInfinity := -340282346638528859811704183484516925440
  half := fun q => q / 2

inductive Intersection where
  | outside
  | intersects
  | inside
  deriving DecidableEq

structure BoundingBox (C : Type) where
  min : Vector3 C
  max : Vector3 C
  deriving DecidableEq

namespace BoundingBox

variable {C : Type} [Coordinate C]

/-- `BoundingBox()` -/
def create : BoundingBox C where
  min := ⟨Coordinate.infinity, Coordinate.infinity, Coordinate.infinity⟩
  max := ⟨Coordinate.negInfinity, Coordinate.negInfinity, Coordinate.negInfinity⟩

def merge (b box : BoundingBox C) : BoundingBox C where
  min := ⟨if box.min.x < b.min.x then box.min.x else b.min.x,
    if box.min.y < b.min.y then box.min.y else b.min.y,
    if box.min.z < b.min.z then box.min.z else b.min.z⟩
  max := ⟨if box.max.x > b.max.x then box.max.x else b.max.x,
    if box.max.y > b.max.y then box.max.y else b.max.y,
    if box.max.z > b.max.z then box.max.z else b.max.z⟩

def center (b : BoundingBox C) : Vector3 C :=
  ⟨Coordinate.half (b.max.x + b.min.x),
   Coordinate.half (b.max.y + b.min.y),
   Coordinate.half (b.max.z + b.min.z)⟩

/-- `box` is (partially) inside `b` or outside of it. -/
def isInsideFast (b box : BoundingBox C) : Intersection :=
  if box.max.x < b.min.x ∨ box.min.x > b.max.x ∨ box.max.y < b.min.y ∨ box.min.y > b.max.y ∨
      box.max.z < b.min.z ∨ box.min.z > b.max.z then
    .outside
  else .inside

/-! ## Boxes as sets of points -/

/-- `min <= max` along every axis. -/
def Valid (b : BoundingBox C) : Prop := ∀ axis, b.min.get axis ≤ b.max.get axis

def Contains (b : BoundingBox C) (p : Vector3 C) : Prop :=
  ∀ axis, b.min.get axis ≤ p.get axis ∧ p.get axis ≤ b.max.get axis

/-- The boxes overlap by more than their sides. -/
def StrictlyOverlaps (a b : BoundingBox C) : Prop :=
  ∀ axis, a.min.get axis < b.max.get axis ∧ b.min.get axis < a.max.get axis

instance (b : BoundingBox C) : Decidable b.Valid :=
  inferInstanceAs (Decidable (∀ _, _ ≤ _))

instance (a b : BoundingBox C) : Decidable (a.StrictlyOverlaps b) :=
  inferInstanceAs (Decidable (∀ _, _ ∧ _))

/-- A box with a point in common with `b` is not outside of it. -/
theorem isInsideFast_of_contains {b box : BoundingBox C} {p : Vector3 C} (h : b.Contains p)
    (hbox : box.Contains p) : b.isInsideFast box ≠ .outside := by
  obtain ⟨hx, hy, hz⟩ := Vector3.forall_axis.mp h
  obtain ⟨hx', hy', hz'⟩ := Vector3.forall_axis.mp hbox
  have hnot : ¬ (box.max.x < b.min.x ∨ box.min.x > b.max.x ∨ box.max.y < b.min.y ∨
      box.min.y > b.max.y ∨ box.max.z < b.min.z ∨ box.min.z > b.max.z) := by
    simp only [not_or, not_lt, gt_iff_lt]
    exact ⟨hx.1.trans hx'.2, hx'.1.trans hx.2, hy.1.trans hy'.2, hy'.1.trans hy.2,
      hz.1.trans hz'.2, hz'.1.trans hz.2⟩
  simp [isInsideFast, hnot]

theorem merge_min (b box : BoundingBox C) (axis : Fin 3) :
    (b.merge box).min.get axis = Min.min (box.min.get axis) (b.min.get axis) := by
  match axis with
  | 0 => exact (min_def_lt _ _).symm
  | 1 => exact (min_def_lt _ _).symm
  | 2 => exact (min_def_lt _ _).symm

theorem merge_max (b box : BoundingBox C) (axis : Fin 3) :
    (b.merge box).max.get axis = Max.max (b.max.get axis) (box.max.get axis) := by
  match axis with
  | 0 => exact (max_def_lt _ _).symm
  | 1 => exact (max_def_lt _ _).symm
  | 2 => exact (max_def_lt _ _).symm

theorem merge_contains_left {b box : BoundingBox C} {p : Vector3 C} (h : b.Contains p) :
    (b.merge box).Contains p := by
  intro axis
  rw [merge_min, merge_max]
  exact ⟨min_le_of_right_le (h axis).1, le_max_of_le_left (h axis).2⟩

theorem merge_contains_right {b box : BoundingBox C} {p : Vector3 C} (h : box.Contains p) :
    (b.merge box).Contains p := by
  intro axis
  rw [merge_min, merge_max]
  exact ⟨min_le_of_left_le (h axis).1, le_max_of_le_right (h axis).2⟩

/-- The least corner of the overlap of two boxes. -/
def meetingPoint (a b : BoundingBox C) : Vector3 C :=
  ⟨Max.max a.min.x b.min.x, Max.max a.min.y b.min.y, Max.max a.min.z b.min.z⟩

theorem meetingPoint_get (a b : BoundingBox C) (axis : Fin 3) :
    (a.meetingPoint b).get axis = Max.max (a.min.get axis) (b.min.get axis) := by
  match axis with
  | 0 => rfl
  | 1 => rfl
  | 2 => rfl

/-- Two valid boxes that overlap have a point in common. -/
theorem contains_meetingPoint {a b : BoundingBox C} (ha : a.Valid) (hb : b.Valid)
    (hab : a.StrictlyOverlaps b) : a.Contains (a.meetingPoint b) ∧ b.Contains (a.meetingPoint b) := by
  constructor
  · intro axis
    rw [meetingPoint_get]
    exact ⟨le_max_left _ _, max_le (ha axis) (le_of_lt (hab axis).2)⟩
  · intro axis
    rw [meetingPoint_get]
    exact ⟨le_max_right _ _, max_le (le_of_lt (hab axis).1) (hb axis)⟩

end BoundingBox

end Lumos.Maths
