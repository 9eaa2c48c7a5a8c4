import Mathlib
import Lumos.Maths.UnitQuaternions
import Lumos.Physics.RigidBody3D

/-!
# `WeldConstraint`

The second body is put where the first one takes the offsets that the constraint has been made
with. They are kept as they are in the world, not as they are seen from the first body.
-/
namespace Lumos.Physics.Dynamics

open Maths FloatArithmetic CollisionDetection

/-! ## The constraint -/

section Constraint

variable {K : Type} {n : Nat}

structure WeldConstraint (n : Nat) (K : Type) where
  obj1 : Fin n
  obj2 : Fin n
  positionOffset : Vector3 K
  orientation : Maths.Quaternion K

namespace WeldConstraint

variable [FloatInfinity K]

/-- `WeldConstraint(obj1, obj2)` -/
def create (bodies : Fin n → RigidBody3D K) (obj1 obj2 : Fin n) : WeldConstraint n K where
  obj1 := obj1
  obj2 := obj2
  positionOffset := (bodies obj2).position - (bodies obj1).position
  orientation := (bodies obj2).orientation

def applyImpulse (c : WeldConstraint n K) (bodies : Fin n → RigidBody3D K) : Fin n → RigidBody3D K :=
  let pos := (bodies c.obj1).orientation.apply c.positionOffset + (bodies c.obj1).position
  let bodies := Function.update bodies c.obj2 ((bodies c.obj2).setPosition pos)
  Function.update bodies c.obj2
    ((bodies c.obj2).setOrientation ((bodies c.obj1).orientation.product c.orientation))

variable (c : WeldConstraint n K) (bodies : Fin n → RigidBody3D K)

theorem applyImpulse_other {k : Fin n} (hk : k ≠ c.obj2) : c.applyImpulse bodies k = bodies k := by
  simp [applyImpulse, hk]

/-- The second body follows the first one. -/
theorem applyImpulse_toPose (hdistinct : c.obj1 ≠ c.obj2) : (c.applyImpulse bodies c.obj2).toPose =
    ⟨(bodies c.obj1).orientation.apply c.positionOffset + (bodies c.obj1).position,
     (bodies c.obj1).orientation.product c.orientation⟩ := by
  simp [applyImpulse, hdistinct, RigidBody3D.setPosition, RigidBody3D.setOrientation]

end WeldConstraint

end Constraint

/-! ## Relative poses -/

section Relative

/-- The pose of the one as seen from the other. -/
noncomputable def relativePose (base pose : Pose ℝ) : Pose ℝ :=
  ⟨base.orientation.conjugate.apply (pose.position - base.position), base.orientation.conjugate.product pose.orientation⟩

/-- Poses with the same position that turn all vectors alike. -/
structure SamePose (a b : Pose ℝ) : Prop where
  position : a.position = b.position
  orientation : ∀ v, a.orientation.apply v = b.orientation.apply v

/-- No vector is turned. -/
def Unturned (q : Maths.Quaternion ℝ) : Prop := ∀ v : Vector3 ℝ, q.apply v = v

variable {base pose offset : Pose ℝ}

/-- A pose that is made from an offset is at that offset. -/
theorem relativePose_carried (hbase : base.orientation.IsRotation) :
    relativePose base ⟨base.orientation.apply offset.position + base.position,
      base.orientation.product offset.orientation⟩ = offset := by
  have hsub : base.orientation.apply offset.position + base.position - base.position =
      base.orientation.apply offset.position := by
    ext <;> simp
  rw [relativePose, hsub, Quaternion.conjugate_apply_apply hbase, Quaternion.conjugate_product_product hbase]

/-- The pose as it is in the world is that seen from a body which is not turned, and from no other. -/
theorem samePose_relative_iff (hbase : base.orientation.IsRotation) (hpose : pose.orientation.IsRotation) :
    SamePose ⟨pose.position - base.position, pose.orientation⟩ (relativePose base pose) ↔
      Unturned base.orientation := by
  constructor
  · intro hsame v
    have hturned := hsame.orientation (pose.orientation.conjugate.apply v)
    rw [relativePose, Quaternion.product_apply (Quaternion.isRotation_conjugate hbase) hpose,
      Quaternion.apply_conjugate_apply hpose] at hturned
    exact (Quaternion.conjugate_apply_eq_iff hbase v).mp hturned.symm
  · intro hunturned
    have hback : ∀ v : Vector3 ℝ, base.orientation.conjugate.apply v = v := fun v =>
      (Quaternion.conjugate_apply_eq_iff hbase v).mpr (hunturned v)
    constructor
    · exact (hback _).symm
    · intro v
      rw [relativePose, Quaternion.product_apply (Quaternion.isRotation_conjugate hbase) hpose, hback]

end Relative

/-! ## What the constraint keeps -/

section Kept

variable {n : Nat} {obj1 obj2 : Fin n}

/-- The second body is seen from the first one at the offsets of the constraint. -/
theorem relativePose_applyImpulse (hdistinct : obj1 ≠ obj2) (made : Fin n → RigidBody3D ℝ)
    {moved : Fin n → RigidBody3D ℝ} (hmoved : (moved obj1).orientation.IsRotation) :
    relativePose ((WeldConstraint.create made obj1 obj2).applyImpulse moved obj1).toPose
        ((WeldConstraint.create made obj1 obj2).applyImpulse moved obj2).toPose =
      ⟨(made obj2).position - (made obj1).position, (made obj2).orientation⟩ := by
  rw [WeldConstraint.applyImpulse_other _ _ hdistinct]
  have hsecond := WeldConstraint.applyImpulse_toPose (WeldConstraint.create made obj1 obj2) moved hdistinct
  rw [WeldConstraint.create] at hsecond ⊢
  rw [hsecond]
  exact @relativePose_carried _ ⟨_, _⟩ hmoved

/-- Wherever the first body has moved, the second one is put where it was seen from there if
the first one was not turned when the constraint was made, and only then. -/
theorem applyImpulse_keeps_iff (hdistinct : obj1 ≠ obj2) {made moved : Fin n → RigidBody3D ℝ}
    (h1 : (made obj1).orientation.IsRotation) (h2 : (made obj2).orientation.IsRotation)
    (hmoved : (moved obj1).orientation.IsRotation) :
    SamePose
      (relativePose ((WeldConstraint.create made obj1 obj2).applyImpulse moved obj1).toPose
        ((WeldConstraint.create made obj1 obj2).applyImpulse moved obj2).toPose)
      (relativePose (made obj1).toPose (made obj2).toPose) ↔
    Unturned (made obj1).orientation := by
  rw [relativePose_applyImpulse hdistinct made hmoved]
  exact samePose_relative_iff h1 h2

/-- A body turned like this at the origin, and one that is not turned beside it. -/
noncomputable def besideTurned (orientation : Maths.Quaternion ℝ) : Fin 2 → RigidBody3D ℝ := fun body =>
  if body.val = 0 then .create ⟨0, 0, 0, 1, orientation, 0, 0, false, 1, 1, false, none⟩
  else .create ⟨⟨1, 0, 0⟩, 0, 0, 1, ⟨1, 0, 0, 0⟩, 0, 0, false, 1, 1, false, none⟩

theorem besideTurned_orientation (q : Maths.Quaternion ℝ) : (besideTurned q 0).orientation = q := by
  simp [besideTurned, RigidBody3D.create]

theorem besideTurned_isRotation {q : Maths.Quaternion ℝ} (hq : q.IsRotation) (body : Fin 2) :
    (besideTurned q body).orientation.IsRotation := by
  by_cases hbody : body.val = 0
  · obtain rfl : body = 0 := Fin.ext hbody
    rw [besideTurned_orientation]
    exact hq
  · simp [besideTurned, hbody, RigidBody3D.create, Quaternion.IsRotation]

/-- A body that is not turned is moved and turned halfway round. -/
theorem applyImpulse_keeps_halfway :
    SamePose
      (relativePose
        ((WeldConstraint.create (besideTurned ⟨1, 0, 0, 0⟩) 0 1).applyImpulse (besideTurned ⟨0, 0, 0, 1⟩) 0).toPose
        ((WeldConstraint.create (besideTurned ⟨1, 0, 0, 0⟩) 0 1).applyImpulse (besideTurned ⟨0, 0, 0, 1⟩) 1).toPose)
      (relativePose (besideTurned ⟨1, 0, 0, 0⟩ 0).toPose (besideTurned ⟨1, 0, 0, 0⟩ 1).toPose) := by
  have hidentity : (⟨1, 0, 0, 0⟩ : Maths.Quaternion ℝ).IsRotation := by norm_num [Quaternion.IsRotation]
  have hhalfway : (⟨0, 0, 0, 1⟩ : Maths.Quaternion ℝ).IsRotation := by norm_num [Quaternion.IsRotation]
  refine (applyImpulse_keeps_iff (by decide) (besideTurned_isRotation hidentity 0)
    (besideTurned_isRotation hidentity 1) (besideTurned_isRotation hhalfway 0)).mpr ?_
  rw [besideTurned_orientation]
  exact Quaternion.identity_apply

/-- A body that is turned halfway round does not move, and the other one is put on its other
side. -/
theorem turned_not_kept :
    ¬ SamePose
      (relativePose
        ((WeldConstraint.create (besideTurned ⟨0, 0, 0, 1⟩) 0 1).applyImpulse (besideTurned ⟨0, 0, 0, 1⟩) 0).toPose
        ((WeldConstraint.create (besideTurned ⟨0, 0, 0, 1⟩) 0 1).applyImpulse (besideTurned ⟨0, 0, 0, 1⟩) 1).toPose)
      (relativePose (besideTurned ⟨0, 0, 0, 1⟩ 0).toPose (besideTurned ⟨0, 0, 0, 1⟩ 1).toPose) := by
  intro hsame
  have hhalfway : (⟨0, 0, 0, 1⟩ : Maths.Quaternion ℝ).IsRotation := by norm_num [Quaternion.IsRotation]
  rw [relativePose_applyImpulse (by decide) _ (besideTurned_isRotation hhalfway 0)] at hsame
  have hx := congrArg Vector3.x hsame.position
  norm_num [relativePose, besideTurned, RigidBody3D.create, Quaternion.conjugate, Quaternion.apply, two_real] at hx

end Kept

end Lumos.Physics.Dynamics
