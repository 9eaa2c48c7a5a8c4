import Lumos.Graphics.Camera
import Lumos.Maths.ProjectedFrustum

/-!
# What a camera has in view

However a camera has been made and used, the frustum it answers with is that of what its current
parameters let it see, from where it is.
-/
namespace Lumos.Graphics

open Maths FloatArithmetic FloatLiterals LazyCache

/-! ## Views -/

namespace ProjectionParameters

/-- There is something between the limits. -/
structure Sensible (p : ProjectionParameters ℝ) : Prop where
  depth : p.near < p.far
  aspectRatio : 0 < p.aspectRatio
  scale : p.orthographic = true → 0 < p.scale
  near : p.orthographic = false → 0 < p.near
  fov : p.orthographic = false → 0 < p.fov
  /-- Half of the angle is less than a right one. -/
  slope : p.orthographic = false → 0 < Real.tan (p.fov * degToRad * literal (1 / 2))

variable {p : ProjectionParameters ℝ}

noncomputable def viewFrustum (h : p.Sensible) (hlens : p.orthographic = false) : ViewFrustum :=
  ⟨p.near, p.far, p.aspectRatio, p.fov, h.near hlens, h.depth, h.aspectRatio, h.fov hlens, h.slope hlens⟩

theorem across (h : p.Sensible) (hlens : p.orthographic = true) : -p.aspectRatio * p.scale < p.aspectRatio * p.scale := by
  have hpos := mul_pos h.aspectRatio (h.scale hlens)
  linarith

/-- What is in view of a camera that looks along the axis. -/
noncomputable def view (p : ProjectionParameters ℝ) (h : p.Sensible) : View :=
  if hlens : p.orthographic = true then
    straightView p.near p.far (-p.aspectRatio * p.scale) (p.aspectRatio * p.scale) (-p.scale) p.scale h.depth
      (across h hlens) (neg_lt_self (h.scale hlens))
  else (viewFrustum h (Bool.eq_false_iff.mpr hlens)).view

/-- No setter is of the zoom or of the offset. -/
structure Plain (p : ProjectionParameters ℝ) : Prop where
  zoom : p.zoom = 1
  projectionOffset : p.projectionOffset = ⟨0, 0⟩

theorem shows (h : p.Sensible) (hplain : p.Plain) {clip : ClipControl} (hclip : clip = .RH_ZO ∨ clip = .RH_NO) :
    Shows clip (p.projection Real.tan clip) (p.view h) := by
  by_cases hlens : p.orthographic = true
  · rw [view, dif_pos hlens, projection, if_pos hlens, hplain.zoom, hplain.projectionOffset]
    apply shows_straightView
    rcases hclip with rfl | rfl
    · exact Or.inr (Or.inr ⟨rfl, rfl⟩)
    · exact Or.inl rfl
  · rw [view, dif_neg hlens, projection, if_neg hlens, hplain.zoom, hplain.projectionOffset]
    exact (viewFrustum h (Bool.eq_false_iff.mpr hlens)).shows hclip

end ProjectionParameters

/-! ## Cameras in use -/

section Runs

variable {K : Type} [FloatLiterals K] (tan : K → K) (clip : ClipControl)

/-- The camera after a sequence of calls. -/
def Camera.after (camera : Camera K) (calls : List (CameraCall K)) : Camera K :=
  calls.foldl (fun camera call => camera.perform tan clip call) camera

/-- What a sequence of calls says. -/
def CameraHistory.afterAll (h : CameraHistory K) (calls : List (CameraCall K)) : CameraHistory K :=
  calls.foldl CameraHistory.after h

variable {tan clip} {camera : Camera K} {h : CameraHistory K}

theorem Represents.afterAll (hr : Represents tan clip camera h) (calls : List (CameraCall K)) :
    Represents tan clip (camera.after tan clip calls) (h.afterAll calls) := by
  induction calls generalizing camera h with
  | nil => exact hr
  | cons call calls ih => exact ih (hr.perform call)

/-- The frustum of a camera that has just been asked for its projection. -/
theorem Represents.getFrustum_eq (hr : Represents tan clip camera h) (hannounced : h.announced = true)
    (viewMatrix : Matrix4 K) :
    ((camera.getProjectionMatrix tan clip).2.getFrustum tan clip viewMatrix).1 =
      Frustum.define clip ((h.parameters.projection tan clip).product viewMatrix) := by
  have hparameters : ((camera.getProjectionMatrix tan clip).2).toProjectionParameters = h.parameters := by
    rw [Camera.getProjectionMatrix, ← hr.parameters]
    split <;> rfl
  have hafter : (h.after .getProjectionMatrix).announced = true := by
    simp only [CameraHistory.after, CameraCall.changes]
    split <;> exact hannounced
  have hcoherent := (hr.perform .getProjectionMatrix).coherent_iff.mpr (Or.inl hafter)
  have hanswered := ((Camera.answered_getFrustum _ viewMatrix).mpr hcoherent).2
  rw [← hparameters]
  exact hanswered

end Runs

theorem plain_of_changes {p p' : ProjectionParameters ℝ} {call : CameraCall ℝ} (h : call.changes p = some p')
    (hplain : p.Plain) : p'.Plain := by
  cases call <;> cases h <;> exact ⟨hplain.zoom, hplain.projectionOffset⟩

theorem CameraHistory.plain_after {h : CameraHistory ℝ} (hplain : h.parameters.Plain) (call : CameraCall ℝ) :
    (h.after call).parameters.Plain := by
  cases hchanges : call.changes h.parameters with
  | some p =>
    have hafter : (h.after call).parameters = p := by simp only [CameraHistory.after, hchanges]
    exact hafter ▸ plain_of_changes hchanges hplain
  | none =>
    have hsame : (h.after call).parameters = h.parameters := by
      cases call with
      | getProjectionMatrix =>
        simp only [CameraHistory.after, CameraCall.changes]
        split <;> rfl
      | getFrustum viewMatrix =>
        simp only [CameraHistory.after, CameraCall.changes]
        split <;> rfl
      | _ => first | rfl | cases hchanges
    rwa [hsame]

theorem CameraHistory.plain_afterAll {h : CameraHistory ℝ} (hplain : h.parameters.Plain) (calls : List (CameraCall ℝ)) :
    (h.afterAll calls).parameters.Plain := by
  induction calls generalizing h with
  | nil => exact hplain
  | cons call calls ih => exact ih (plain_after hplain call)

theorem CameraConstruction.plain_history (c : CameraConstruction ℝ) : c.history.parameters.Plain := by
  cases c <;> exact ⟨rfl, rfl⟩

section Queries

variable {clip : ClipControl} (c : CameraConstruction ℝ) (calls : List (CameraCall ℝ))

/-- The planes of the frustum enclose what the current parameters have in view, from where the camera is. -/
theorem Camera.front_getFrustum (hannounced : (c.history.afterAll calls).announced = true)
    (hclip : clip = .RH_ZO ∨ clip = .RH_NO) {world : Matrix3x4 ℝ} (hworld : world.toMatrix3.toMatrix.det ≠ 0)
    (hsensible : (c.history.afterAll calls).parameters.Sensible) :
    {p | ∀ plane ∈ ((c.camera.after Real.tan clip calls).getFrustum Real.tan clip world.toMatrix4.inverse).1.planes,
        0 ≤ plane.distance p} =
      world.apply '' ((c.history.afterAll calls).parameters.view hsensible).region clip := by
  have hr := (represents_construction c : Represents Real.tan clip _ _).afterAll calls
  have hcoherent := hr.coherent_iff.mpr (Or.inl hannounced)
  have hanswered := ((Camera.answered_getFrustum _ world.toMatrix4.inverse).mpr hcoherent).2
  have hshows := ProjectionParameters.shows hsensible
    (CameraHistory.plain_afterAll c.plain_history calls) hclip
  rw [hanswered, hr.parameters]
  exact hshows.front_eq hworld

end Queries

/-- The camera of a scene without depth, before anything is set. -/
theorem sensible_orthographic : ((CameraConstruction.orthographic (1 : ℝ) 1).history.afterAll []).parameters.Sensible := by
  have hdepth : (literal (-10) : ℝ) < literal 10 := by
    rw [literal_real, literal_real]
    norm_num
  constructor
  · exact hdepth
  · exact zero_lt_one
  · exact fun _ => zero_lt_one
  · intro hlens
    cases hlens
  · intro hlens
    cases hlens
  · intro hlens
    cases hlens

/-- It has the point where it is in view. -/
theorem zero_mem_region_orthographic :
    (0 : Vector3 ℝ) ∈ (ProjectionParameters.view _ sensible_orthographic).region .RH_NO := by
  have hnear : (literal (-10) : ℝ) ≤ 0 := by
    rw [literal_real]
    norm_num
  have hfar : (0 : ℝ) ≤ literal 10 := by
    rw [literal_real]
    norm_num
  have hlens : ((CameraConstruction.orthographic (1 : ℝ) 1).history.afterAll []).parameters.orthographic = true := rfl
  rw [ProjectionParameters.view, dif_pos hlens]
  refine ⟨0, hnear, hfar, ?_, ?_, ?_, ?_, neg_zero.symm⟩
  · change -(1 : ℝ) * 1 ≤ 0
    norm_num
  · change (0 : ℝ) ≤ 1 * 1
    norm_num
  · change -(1 : ℝ) ≤ 0
    norm_num
  · change (0 : ℝ) ≤ 1
    norm_num

theorem det_initial : (Matrix3x4.initial : Matrix3x4 ℝ).toMatrix3.toMatrix.det ≠ 0 := by
  rw [Matrix3.det_toMatrix, Matrix3x4.toMatrix3, Matrix3x4.initial]
  norm_num

theorem Camera.front_getFrustum_orthographic :
    {p | ∀ plane ∈ (((CameraConstruction.orthographic (1 : ℝ) 1).camera.after Real.tan .RH_NO []).getFrustum Real.tan
        .RH_NO (Matrix3x4.initial : Matrix3x4 ℝ).toMatrix4.inverse).1.planes, 0 ≤ plane.distance p} =
      Matrix3x4.initial.apply '' (ProjectionParameters.view _ sensible_orthographic).region .RH_NO :=
  Camera.front_getFrustum (.orthographic 1 1) [] rfl (Or.inr rfl) det_initial sensible_orthographic

end Lumos.Graphics
