import Lumos.Maths.Matrix4

/-!
# `Maths::Transform`

A local matrix that is rebuilt from position, orientation and scale when one of them
has been set, and the world matrix stored by the last update.
-/
namespace Lumos.Maths

structure Transform (K : Type) where
  localMatrix : Matrix4 K
  worldMatrix : Matrix4 K
  localPosition : Vector3 K
  localScale : Vector3 K
  localOrientation : Quaternion K
  hasUpdated : Bool
  dirty : Bool
  deriving DecidableEq

namespace Transform

variable {K : Type} [CommRing K]

/-- `Transform()`; the orientation of no rotation is the unit quaternion. -/
def new : Transform K where
  localMatrix := 1
  worldMatrix := 1
  localPosition := ⟨0, 0, 0⟩
  localScale := ⟨1, 1, 1⟩
  localOrientation := ⟨1, 0, 0, 0⟩
  hasUpdated := false
  dirty := false

def setLocalPosition (t : Transform K) (localPos : Vector3 K) : Transform K :=
  { t with dirty := true, localPosition := localPos }

def updateMatrices (t : Transform K) : Transform K :=
  { t with
    localMatrix := Matrix4.translation t.localPosition * t.localOrientation.rotationMatrix4 *
      Matrix4.scale t.localScale
    dirty := false
    hasUpdated := true }

/-- What every reader of a matrix does first. -/
def refresh (t : Transform K) : Transform K := if t.dirty then t.updateMatrices else t

def setWorldMatrix (t : Transform K) (mat : Matrix4 K) : Transform K :=
  { t.refresh with worldMatrix := mat * t.refresh.localMatrix }

/-- The matrix returned and the transform left behind. -/
def getWorldMatrix (t : Transform K) : Matrix4 K × Transform K := (t.refresh.worldMatrix, t.refresh)

/-- The matrix returned and the transform left behind. -/
def getLocalMatrix (t : Transform K) : Matrix4 K × Transform K := (t.refresh.localMatrix, t.refresh)

section Lemmas

variable (t : Transform K) (mat : Matrix4 K)

@[simp] theorem worldMatrix_refresh : t.refresh.worldMatrix = t.worldMatrix := by
  unfold refresh
  split <;> rfl

@[simp] theorem dirty_refresh : t.refresh.dirty = false := by
  unfold refresh
  split
  · rfl
  · next h => simpa using h

theorem refresh_of_clean (h : t.dirty = false) : t.refresh = t := by simp [refresh, h]

@[simp] theorem refresh_refresh : t.refresh.refresh = t.refresh := t.refresh.refresh_of_clean t.dirty_refresh

@[simp] theorem worldMatrix_setWorldMatrix :
    (t.setWorldMatrix mat).worldMatrix = mat * t.getLocalMatrix.1 := rfl

/-- Storing a world matrix does not change the local one. -/
@[simp] theorem getLocalMatrix_setWorldMatrix :
    (t.setWorldMatrix mat).getLocalMatrix.1 = t.getLocalMatrix.1 := by
  have hclean : (t.setWorldMatrix mat).dirty = false := t.dirty_refresh
  unfold getLocalMatrix
  rw [refresh_of_clean _ hclean]
  rfl

/-- The local matrix does not depend on the world matrix stored. -/
theorem getLocalMatrix_congr {s t : Transform K}
    (h : { s with worldMatrix := 1 } = ({ t with worldMatrix := 1 } : Transform K)) :
    s.getLocalMatrix.1 = t.getLocalMatrix.1 := by
  have hlocal : ∀ t : Transform K, t.getLocalMatrix.1 =
      ({ t with worldMatrix := 1 } : Transform K).getLocalMatrix.1 := by
    intro t
    unfold getLocalMatrix refresh
    dsimp only
    split <;> rfl
  rw [hlocal s, hlocal t, h]

/-- Reading the world matrix does not change the local one. -/
@[simp] theorem getLocalMatrix_getWorldMatrix :
    t.getWorldMatrix.2.getLocalMatrix.1 = t.getLocalMatrix.1 := by
  simp [getLocalMatrix, getWorldMatrix]

end Lemmas

end Transform

end Lumos.Maths
