import Lumos.Library.Caches
import Lumos.Maths.Projection
import Lumos.Library.Runs

/-!
# `Camera`

The projection is kept until a setter says that it is out of date. `tan` and the clip
control are those of the platform.
-/
namespace Lumos.Graphics

open Maths FloatArithmetic FloatLiterals LazyCache

variable {K : Type} [FloatLiterals K]

/-- What the projection depends on. -/
structure ProjectionParameters (K : Type) where
  aspectRatio : K
  scale : K
  zoom : K
  projectionOffset : Vector2 K
  fov : K
  near : K
  far : K
  orthographic : Bool

namespace ProjectionParameters

/-- The initialisers of the class. -/
def initial : ProjectionParameters K where
  aspectRatio := 0
  scale := 1
  zoom := 1
  projectionOffset := ⟨0, 0⟩
  fov := 0
  near := 0
  far := 0
  orthographic := false

/-- What `UpdateProjectionMatrix` computes. -/
def projection (tan : K → K) (clip : ClipControl) (p : ProjectionParameters K) : Matrix4 K :=
  if p.orthographic then
    .orthographic p.near p.far p.projectionOffset.x p.projectionOffset.y p.zoom (-p.aspectRatio * p.scale)
      (p.aspectRatio * p.scale) (-p.scale) p.scale clip
  else
    .perspective tan p.near p.far p.aspectRatio p.fov p.projectionOffset.x p.projectionOffset.y p.zoom clip

end ProjectionParameters

structure Camera (K : Type) extends ProjectionParameters K where
  projMatrix : Matrix4 K
  frustum : Frustum K
  frustumDirty : Bool
  projectionDirty : Bool
  customProjection : Bool
  mouseSensitivity : K

/-! ## Constructors -/

inductive CameraConstruction (K : Type) where
  /-- `Camera()` -/
  | default
  | perspective (FOV Near Far aspect : K)
  | pitchYaw (pitch yaw : K) (position : Vector3 K) (FOV Near Far aspect : K)
  | orthographic (aspectRatio scale : K)

namespace CameraConstruction

def parameters : CameraConstruction K → ProjectionParameters K
  | default => .initial
  | perspective FOV Near Far aspect | pitchYaw _ _ _ FOV Near Far aspect =>
    { (.initial : ProjectionParameters K) with aspectRatio := aspect, fov := FOV, near := Near, far := Far, scale := 1 }
  | orthographic aspectRatio scale =>
    { (.initial : ProjectionParameters K) with
      aspectRatio, scale, fov := 0, near := literal (-10), far := literal 10, orthographic := true }

/-- The initialiser of the flag is `false`, and `Camera()` leaves it at that. -/
def projectionDirty : CameraConstruction K → Bool
  | default => false
  | perspective .. | pitchYaw .. | orthographic .. => true

def camera (c : CameraConstruction K) : Camera K where
  toProjectionParameters := c.parameters
  projMatrix := .initial
  frustum := .initial
  frustumDirty := true
  projectionDirty := c.projectionDirty
  customProjection := false
  mouseSensitivity := literal (1 / 10)

end CameraConstruction

/-! ## Setters -/

namespace Camera

/-- What setters of parameters do. -/
def change (camera : Camera K) (p : ProjectionParameters K) : Camera K :=
  { camera with toProjectionParameters := p, frustumDirty := true, projectionDirty := true }

def setMouseSensitivity (camera : Camera K) (value : K) : Camera K := { camera with mouseSensitivity := value }

def setIsOrthographic (camera : Camera K) (ortho : Bool) : Camera K :=
  camera.change { camera.toProjectionParameters with orthographic := ortho }

def setAspectRatio (camera : Camera K) (y : K) : Camera K :=
  camera.change { camera.toProjectionParameters with aspectRatio := y }

def setFar (camera : Camera K) (pFar : K) : Camera K :=
  camera.change { camera.toProjectionParameters with far := pFar }

def setNear (camera : Camera K) (pNear : K) : Camera K :=
  camera.change { camera.toProjectionParameters with near := pNear }

def setScale (camera : Camera K) (scale : K) : Camera K := camera.change { camera.toProjectionParameters with scale }

def setFOV (camera : Camera K) (fov : K) : Camera K := camera.change { camera.toProjectionParameters with fov }

/-- `load`, of what `save` has written. -/
def load (camera : Camera K) (scale aspect fov near far : K) : Camera K :=
  camera.change { camera.toProjectionParameters with scale, aspectRatio := aspect, fov, near, far }

/-! ## Queries -/

variable (tan : K → K) (clip : ClipControl)

def updateProjectionMatrix (camera : Camera K) : Camera K :=
  { camera with projMatrix := camera.projection tan clip }

def projectionCache (camera : Camera K) : Cached (Matrix4 K) := ⟨camera.projMatrix, camera.projectionDirty⟩

/-- The camera with which `GetFrustum` goes on. -/
def projected (camera : Camera K) : Camera K :=
  if camera.projectionDirty then camera.updateProjectionMatrix tan clip else camera

/-- The projection is always taken for a custom one. -/
def getFrustum (camera : Camera K) (viewMatrix : Matrix4 K) : Frustum K × Camera K :=
  let camera := { camera.projected tan clip with customProjection := true }
  let frustum := Frustum.define clip (camera.projMatrix.product viewMatrix)
  (frustum, { camera with frustum, frustumDirty := false })

def getProjectionMatrix (camera : Camera K) : Matrix4 K × Camera K :=
  let camera :=
    if camera.projectionDirty then { camera.updateProjectionMatrix tan clip with projectionDirty := false }
    else camera
  (camera.projMatrix, camera)

end Camera

/-- What `GetScreenRay` makes of a projection. -/
def screenRay (projMatrix : Matrix4 K) (x y : K) (viewMatrix : Matrix4 K) (invertY : Bool) : Ray K :=
  let viewProjInverse := (projMatrix.product viewMatrix).inverse
  let x := two * x - 1
  let y := two * y - 1
  let y := if invertY then y * -1 else y
  let origin := viewProjInverse.apply ⟨x, y, 0⟩
  ⟨origin, (viewProjInverse.apply ⟨x, y, 1⟩ - origin).normalize⟩

/-- The matrix is taken as it is, dirty or not. -/
def Camera.getScreenRay (camera : Camera K) (x y : K) (viewMatrix : Matrix4 K) (invertY : Bool) : Ray K :=
  screenRay camera.projMatrix x y viewMatrix invertY

end Lumos.Graphics

/-!
## Which projection the queries of a camera answer with

A camera is constructed, and then setters and queries are called in any order. The two
queries that look at the flag answer with the current projection; `GetScreenRay` does so
when the projection computed last is the current one.
-/
namespace Lumos.Graphics

open Maths LazyCache

variable {K : Type} [FloatLiterals K]

inductive CameraCall (K : Type) where
  | setMouseSensitivity (value : K)
  | setIsOrthographic (ortho : Bool)
  | setAspectRatio (y : K)
  | setFar (pFar : K)
  | setNear (pNear : K)
  | setScale (scale : K)
  | setFOV (fov : K)
  | load (scale aspect fov near far : K)
  | getProjectionMatrix
  | getFrustum (viewMatrix : Matrix4 K)
  | getScreenRay (x y : K) (viewMatrix : Matrix4 K) (invertY : Bool)

/-- The parameters after a setter of parameters. -/
def CameraCall.changes (p : ProjectionParameters K) : CameraCall K → Option (ProjectionParameters K)
  | setIsOrthographic ortho => some { p with orthographic := ortho }
  | setAspectRatio y => some { p with aspectRatio := y }
  | setFar pFar => some { p with far := pFar }
  | setNear pNear => some { p with near := pNear }
  | setScale scale => some { p with scale }
  | setFOV fov => some { p with fov }
  | load scale aspect fov near far => some { p with scale, aspectRatio := aspect, fov, near, far }
  | setMouseSensitivity _ | getProjectionMatrix | getFrustum _ | getScreenRay .. => none

section Calls

variable (tan : K → K) (clip : ClipControl)

namespace Camera

def perform (camera : Camera K) : CameraCall K → Camera K
  | .setMouseSensitivity value => camera.setMouseSensitivity value
  | .setIsOrthographic ortho => camera.setIsOrthographic ortho
  | .setAspectRatio y => camera.setAspectRatio y
  | .setFar pFar => camera.setFar pFar
  | .setNear pNear => camera.setNear pNear
  | .setScale scale => camera.setScale scale
  | .setFOV fov => camera.setFOV fov
  | .load scale aspect fov near far => camera.load scale aspect fov near far
  | .getProjectionMatrix => (camera.getProjectionMatrix tan clip).2
  | .getFrustum viewMatrix => (camera.getFrustum tan clip viewMatrix).2
  | .getScreenRay .. => camera

def calls : Runs.System (Camera K) (CameraCall K) where
  inScope := fun _ _ => True
  perform := fun camera call => some (camera.perform tan clip call)

/-- The query works with the projection of the current parameters, and answers with what
belongs to it. -/
def Answered (camera : Camera K) : CameraCall K → Prop
  | .getProjectionMatrix => (camera.getProjectionMatrix tan clip).1 = camera.projection tan clip
  | .getFrustum viewMatrix =>
    (camera.projected tan clip).projMatrix = camera.projection tan clip ∧
      (camera.getFrustum tan clip viewMatrix).1 =
        Frustum.define clip ((camera.projection tan clip).product viewMatrix)
  | .getScreenRay x y viewMatrix invertY =>
    camera.projMatrix = camera.projection tan clip ∧
      camera.getScreenRay x y viewMatrix invertY = screenRay (camera.projection tan clip) x y viewMatrix invertY
  | _ => True

variable {tan clip}

theorem perform_of_changes {camera : Camera K} {call : CameraCall K} {p : ProjectionParameters K}
    (h : call.changes camera.toProjectionParameters = some p) :
    camera.perform tan clip call = camera.change p := by
  cases call <;> cases h <;> rfl

theorem projected_projMatrix (camera : Camera K) :
    (camera.projected tan clip).projMatrix =
      (camera.projectionCache.refresh (camera.projection tan clip)).value := by
  cases h : camera.projectionDirty <;> simp [projected, projectionCache, Cached.refresh, updateProjectionMatrix, h]

theorem getProjectionMatrix_fst (camera : Camera K) :
    (camera.getProjectionMatrix tan clip).1 =
      (camera.projectionCache.refresh (camera.projection tan clip)).value := by
  cases h : camera.projectionDirty <;>
    simp [getProjectionMatrix, projectionCache, Cached.refresh, updateProjectionMatrix, h]

theorem answered_getProjectionMatrix (camera : Camera K) :
    camera.Answered tan clip .getProjectionMatrix ↔
      camera.projectionCache.Coherent (camera.projection tan clip) := by
  rw [Answered, getProjectionMatrix_fst]
  exact Cached.refresh_value_iff _ _

theorem answered_getFrustum (camera : Camera K) (viewMatrix : Matrix4 K) :
    camera.Answered tan clip (.getFrustum viewMatrix) ↔
      camera.projectionCache.Coherent (camera.projection tan clip) := by
  rw [← Cached.refresh_value_iff, ← projected_projMatrix]
  constructor
  · intro h
    exact h.1
  · intro h
    have hfrustum : (camera.getFrustum tan clip viewMatrix).1 =
        Frustum.define clip ((camera.projected tan clip).projMatrix.product viewMatrix) := rfl
    exact ⟨h, by rw [hfrustum, h]⟩

theorem answered_getScreenRay (camera : Camera K) (x y : K) (viewMatrix : Matrix4 K) (invertY : Bool) :
    camera.Answered tan clip (.getScreenRay x y viewMatrix invertY) ↔
      camera.projMatrix = camera.projection tan clip := by
  constructor
  · intro h
    exact h.1
  · intro h
    exact ⟨h, by rw [getScreenRay, h]⟩

end Camera

/-! ## What the calls so far say -/

structure CameraHistory (K : Type) where
  parameters : ProjectionParameters K
  /-- A constructor or a setter has said that the projection is out of date. -/
  announced : Bool
  /-- The parameters when the projection was computed last. -/
  projected : Option (ProjectionParameters K)

def CameraConstruction.history (c : CameraConstruction K) : CameraHistory K :=
  ⟨c.parameters, c.projectionDirty, none⟩

namespace CameraHistory

def after (h : CameraHistory K) (call : CameraCall K) : CameraHistory K :=
  match call.changes h.parameters with
  | some p => { h with parameters := p, announced := true }
  | none =>
    match call with
    | .getProjectionMatrix | .getFrustum _ => if h.announced then { h with projected := some h.parameters } else h
    | _ => h

/-- The projection computed last, or the matrix a camera is made with. -/
def lastProjection (h : CameraHistory K) : Matrix4 K :=
  match h.projected with
  | some p => p.projection tan clip
  | none => .initial

/-- A ray may be asked for when the projection has been computed since the last setter that
made a difference to it, and anything else once the projection has been said to be out of
date. -/
def Due (h : CameraHistory K) : CameraCall K → Prop
  | .getProjectionMatrix | .getFrustum _ => h.announced = true ∨ .initial = h.parameters.projection tan clip
  | .getScreenRay .. => h.lastProjection tan clip = h.parameters.projection tan clip
  | _ => True

def UpToDate : CameraHistory K → List (CameraCall K) → Prop
  | _, [] => True
  | h, call :: calls => h.Due tan clip call ∧ (h.after call).UpToDate calls

end CameraHistory

/-! ## The camera and its history -/

structure Represents (camera : Camera K) (h : CameraHistory K) : Prop where
  parameters : camera.toProjectionParameters = h.parameters
  last : camera.projMatrix = h.lastProjection tan clip
  silent : h.announced = false → camera.projectionDirty = false ∧ h.projected = none
  clean : h.announced = true → camera.projectionDirty = false → h.projected = some h.parameters

variable {tan clip} {camera : Camera K} {h : CameraHistory K}

theorem represents_construction (c : CameraConstruction K) : Represents tan clip c.camera c.history where
  parameters := rfl
  last := rfl
  silent := fun hsilent => ⟨hsilent, rfl⟩
  clean := fun hannounced hclean => by cases hannounced.symm.trans hclean

theorem Represents.coherent_iff (hr : Represents tan clip camera h) :
    camera.projectionCache.Coherent (camera.projection tan clip) ↔
      h.announced = true ∨ .initial = h.parameters.projection tan clip := by
  cases hannounced : h.announced with
  | true =>
    have hcoherent : camera.projectionCache.Coherent (camera.projection tan clip) := by
      intro hclean
      have hprojected := hr.clean hannounced hclean
      have hlast := hr.last
      rw [CameraHistory.lastProjection, hprojected, ← hr.parameters] at hlast
      exact hlast
    simp [hcoherent]
  | false =>
    obtain ⟨hclean, hprojected⟩ := hr.silent hannounced
    have hlast := hr.last
    rw [CameraHistory.lastProjection, hprojected] at hlast
    simp [Cached.Coherent, Camera.projectionCache, hclean, hlast, hr.parameters]

/-- A call is answered rightly exactly when it is due. -/
theorem Represents.answered_iff (hr : Represents tan clip camera h) (call : CameraCall K) :
    camera.Answered tan clip call ↔ h.Due tan clip call := by
  cases call with
  | getProjectionMatrix => rw [Camera.answered_getProjectionMatrix, hr.coherent_iff, CameraHistory.Due]
  | getFrustum viewMatrix => rw [Camera.answered_getFrustum, hr.coherent_iff, CameraHistory.Due]
  | getScreenRay x y viewMatrix invertY =>
    rw [Camera.answered_getScreenRay, hr.last, hr.parameters, CameraHistory.Due]
  | _ => exact Iff.rfl

theorem Represents.change (hr : Represents tan clip camera h) (p : ProjectionParameters K) :
    Represents tan clip (camera.change p) { h with parameters := p, announced := true } where
  parameters := rfl
  last := hr.last
  silent := fun hsilent => by cases hsilent
  clean := fun _ hclean => by cases hclean

/-- A camera that has looked at the flag. -/
theorem Represents.projected (hr : Represents tan clip camera h) {camera' : Camera K}
    (hparameters : camera'.toProjectionParameters = camera.toProjectionParameters)
    (hmatrix : camera'.projMatrix = (camera.projectionCache.refresh (camera.projection tan clip)).value)
    (hdirty : camera'.projectionDirty = true → camera.projectionDirty = true) :
    Represents tan clip camera' (if h.announced then { h with projected := some h.parameters } else h) := by
  cases hannounced : h.announced with
  | true =>
    have hcoherent := hr.coherent_iff.mpr (Or.inl hannounced)
    have hcurrent := (Cached.refresh_value_iff _ _).mpr hcoherent
    constructor
    · exact hparameters.trans hr.parameters
    · rw [hmatrix, hcurrent, hr.parameters]
      rfl
    · intro hsilent
      cases hsilent
    · intro _ _
      rfl
  | false =>
    obtain ⟨hclean, hprojected⟩ := hr.silent hannounced
    have hmatrix' : camera'.projMatrix = camera.projMatrix := by
      rw [hmatrix, Cached.refresh_of_clean hclean]
      rfl
    have hclean' : camera'.projectionDirty = false := by
      cases h' : camera'.projectionDirty with
      | true => rw [hdirty h'] at hclean; contradiction
      | false => rfl
    constructor
    · exact hparameters.trans hr.parameters
    · exact hmatrix'.trans hr.last
    · intro _
      exact ⟨hclean', hprojected⟩
    · intro h'
      simp [hannounced] at h'

theorem Represents.perform (hr : Represents tan clip camera h) (call : CameraCall K) :
    Represents tan clip (camera.perform tan clip call) (h.after call) := by
  cases hchanges : call.changes h.parameters with
  | some p =>
    have hafter : h.after call = { h with parameters := p, announced := true } := by
      simp only [CameraHistory.after, hchanges]
    rw [Camera.perform_of_changes (by rw [hr.parameters]; exact hchanges), hafter]
    exact hr.change p
  | none =>
    cases call with
    | getProjectionMatrix =>
      apply hr.projected
      · rw [Camera.perform, Camera.getProjectionMatrix]
        split <;> rfl
      · exact Camera.getProjectionMatrix_fst camera
      · rw [Camera.perform, Camera.getProjectionMatrix]
        split
        · intro hdirty
          contradiction
        · exact id
    | getFrustum viewMatrix =>
      apply hr.projected
      · rw [Camera.perform, Camera.getFrustum, Camera.projected]
        split <;> rfl
      · exact Camera.projected_projMatrix camera
      · rw [Camera.perform, Camera.getFrustum, Camera.projected]
        split <;> exact id
    | setMouseSensitivity value => exact ⟨hr.parameters, hr.last, hr.silent, hr.clean⟩
    | getScreenRay x y viewMatrix invertY => exact hr
    | _ => cases hchanges

/-- However a camera has been constructed, a sequence of calls is answered with current
projections exactly when each is up to date. -/
theorem answered_iff_upToDate (c : CameraConstruction K) (calls : List (CameraCall K)) :
    (Camera.calls tan clip).Performs (fun camera call _ => camera.Answered tan clip call) c.camera calls ↔
      c.history.UpToDate tan clip calls := by
  have hruns : ∀ (camera : Camera K) (h : CameraHistory K), Represents tan clip camera h →
      ((Camera.calls tan clip).Performs (fun camera call _ => camera.Answered tan clip call) camera calls ↔
        h.UpToDate tan clip calls) := by
    induction calls with
    | nil => exact fun _ _ _ => Iff.rfl
    | cons call calls ih =>
      intro camera h hr
      have hrest := ih _ _ (hr.perform call)
      constructor
      · intro hperforms
        obtain ⟨t, hperform, hanswered, hperforms⟩ := hperforms trivial
        cases hperform
        exact ⟨(hr.answered_iff call).mp hanswered, hrest.mp hperforms⟩
      · intro hup _
        exact ⟨_, rfl, (hr.answered_iff call).mpr hup.1, hrest.mpr hup.2⟩
  exact hruns _ _ (represents_construction c)

end Calls

/-- An orthographic camera whose scale is doubled after its projection has been computed: the
ray through the corner starts at the old corner. -/
theorem getScreenRay_after_setScale :
    let camera := (CameraConstruction.orthographic (1 : ℚ) 1).camera
    let calls := [.getProjectionMatrix, .setScale 2, .getScreenRay 1 1 .initial false]
    let scaled := ((camera.getProjectionMatrix id .RH_NO).2.setScale 2)
    (scaled.getScreenRay 1 1 .initial false).origin = ⟨1, 1, 0⟩ ∧
      (screenRay (scaled.projection id .RH_NO) 1 1 .initial false).origin = ⟨2, 2, 0⟩ ∧
      ¬ (Camera.calls id .RH_NO).Performs (fun camera call _ => camera.Answered id .RH_NO call) camera calls := by
  intro camera calls scaled
  have hold : (scaled.getScreenRay 1 1 .initial false).origin = ⟨1, 1, 0⟩ := by decide +kernel
  have hnew : (screenRay (scaled.projection id .RH_NO) 1 1 .initial false).origin = ⟨2, 2, 0⟩ := by
    decide +kernel
  refine ⟨hold, hnew, ?_⟩
  intro hperforms
  obtain ⟨_, hfirst, _, hperforms⟩ := hperforms trivial
  cases hfirst
  obtain ⟨_, hsecond, _, hperforms⟩ := hperforms trivial
  cases hsecond
  obtain ⟨_, _, hanswered, _⟩ := hperforms trivial
  have horigin : (scaled.getScreenRay 1 1 .initial false).origin =
      (screenRay (scaled.projection id .RH_NO) 1 1 .initial false).origin := congrArg Ray.origin hanswered.2
  rw [hold, hnew] at horigin
  revert horigin
  decide

end Lumos.Graphics
