import Mathlib.Algebra.Group.Nat.Defs
import Mathlib.Data.Int.Order.Basic
import Lumos.Library.Runs

/-!
# `SceneManager`

A switch is asked for by setting an index and a flag and carried out by a later
`ApplySceneSwitch`. Running out of the range of the scene list, and the remainder of a
division by its size when it is empty, are faults.
-/
namespace Lumos.Scene

/-- A scene with its address. -/
structure SceneObject where
  address : Nat
  sceneName : String
  deriving DecidableEq

structure SceneManager where
  /-- A `uint32_t`. -/
  sceneIdx : Nat
  /-- The address of the current scene. -/
  currentScene : Option Nat
  allScenes : List SceneObject
  switchingScenes : Bool
  /-- An `int`. -/
  queuedSceneIndex : Int
  deriving DecidableEq

namespace SceneManager

/-- Conversion to `int`. -/
def toInt (n : Nat) : Int := (n : Int).bmod (2 ^ 32)

/-- `SceneManager()` -/
def init : SceneManager := ⟨0, none, [], false, -1⟩

/-- `EnqueueScene` -/
def enqueueScene (m : SceneManager) (scene : SceneObject) : SceneManager :=
  { m with allScenes := m.allScenes ++ [scene] }

/-- `SwitchScene(int)` -/
def switchSceneTo (m : SceneManager) (idx : Int) : SceneManager :=
  { m with queuedSceneIndex := idx, switchingScenes := true }

/-- `SwitchScene()` -/
def switchScene (m : SceneManager) : Option SceneManager :=
  if m.allScenes.length = 0 then none
  else some (m.switchSceneTo (toInt ((m.sceneIdx + 1) % 2 ^ 32 % m.allScenes.length)))

/-- `SwitchScene(const std::string&)` -/
def switchSceneByName (m : SceneManager) (name : String) : SceneManager :=
  match m.allScenes.findIdx? (fun scene => scene.sceneName == name) with
  | some idx => { m with switchingScenes := true }.switchSceneTo (toInt idx)
  | none => { m with switchingScenes := true }

/-- What reading a scene from its file does: the file may rename it, and may be broken. -/
structure Loading where
  sceneName : Option String
  throws : Bool

/-- Every scene but the one at the index as it is. -/
def rename (scenes : List SceneObject) (idx : Nat) : Option String → List SceneObject
  | none => scenes
  | some sceneName => scenes.modify idx fun scene => { scene with sceneName }

/-- `ApplySceneSwitch` from the test of the queued index on. -/
def enterScene (m : SceneManager) (loading : Loading) : Option SceneManager :=
  let queued :=
    if m.queuedSceneIndex < 0 ∨ m.queuedSceneIndex ≥ toInt m.allScenes.length then 0 else m.queuedSceneIndex
  match m.allScenes[queued.toNat]? with
  | none => none
  | some scene => some { m with
      queuedSceneIndex := queued
      sceneIdx := queued.toNat
      currentScene := some scene.address
      allScenes := rename m.allScenes queued.toNat loading.sceneName
      switchingScenes := loading.throws && m.switchingScenes }

/-- `ApplySceneSwitch`, where `address` is that of the scene it may have to make. -/
def applySceneSwitch (m : SceneManager) (address : Nat) (loading : Loading) : Option SceneManager :=
  if m.switchingScenes then m.enterScene loading
  else if m.currentScene.isSome then some m
  else
    let allScenes := if m.allScenes.isEmpty then [⟨address, "NewScene"⟩] else m.allScenes
    { m with allScenes, queuedSceneIndex := 0 }.enterScene loading

inductive Operation where
  | enqueueScene (scene : SceneObject)
  | switchScene
  | switchSceneTo (idx : Int)
  | switchSceneByName (name : String)
  | applySceneSwitch (address : Nat) (loading : Loading)

def perform (m : SceneManager) : Operation → Option SceneManager
  | .enqueueScene scene => some (m.enqueueScene scene)
  | .switchScene => m.switchScene
  | .switchSceneTo idx => some (m.switchSceneTo idx)
  | .switchSceneByName name => some (m.switchSceneByName name)
  | .applySceneSwitch address loading => m.applySceneSwitch address loading

/-- All operations can be asked for at any time. -/
def calls : Runs.System SceneManager Operation where
  inScope _ _ := True
  perform := perform

/-- The current scene is the list entry at the current index. -/
def OnCurrent (m : SceneManager) : Prop :=
  ∃ scene, m.allScenes[m.sceneIdx]? = some scene ∧ m.currentScene = some scene.address

/-- No scene has this name. -/
def Unknown (m : SceneManager) (name : String) : Prop := ∀ scene ∈ m.allScenes, scene.sceneName ≠ name

instance (m : SceneManager) (name : String) : Decidable (m.Unknown name) :=
  inferInstanceAs (Decidable (∀ scene ∈ m.allScenes, scene.sceneName ≠ name))

/-- What is asked of an operation that does not fault. -/
def Meets (m : SceneManager) : Operation → SceneManager → Prop
  | .applySceneSwitch _ _, m' => m'.OnCurrent
  | .switchSceneByName name, m' => m.Unknown name → m' = m
  | .enqueueScene _, _ | .switchScene, _ | .switchSceneTo _, _ => True

/-- There is a scene to go on to where one is asked for, and a name is that of a scene or a
switch is under way already. -/
def Safe (m : SceneManager) : Operation → Prop
  | .switchScene => m.allScenes ≠ []
  | .switchSceneByName name => m.Unknown name → m.switchingScenes = true
  | .applySceneSwitch _ _ => m.switchingScenes = true → m.allScenes ≠ []
  | .enqueueScene _ | .switchSceneTo _ => True

/-- Once a scene is current it stays the entry at the current index. -/
def Consistent (m : SceneManager) : Prop := m.currentScene = none ∨ m.OnCurrent

theorem bmod_le (n m : Nat) : (n : Int).bmod m ≤ n := by
  have hmod : ((n % m : Nat) : Int) ≤ n := Int.ofNat_le.mpr (Nat.mod_le n m)
  rw [Int.natCast_emod] at hmod
  rw [Int.bmod_eq_emod]
  split <;> omega

theorem toInt_le (n : Nat) : toInt n ≤ n := bmod_le n (2 ^ 32)

theorem rename_getElem? (scenes : List SceneObject) (idx : Nat) (sceneName : Option String) (i : Nat) :
    ((rename scenes idx sceneName)[i]?).map SceneObject.address = (scenes[i]?).map SceneObject.address := by
  cases sceneName with
  | none => rfl
  | some name =>
    rw [rename, List.getElem?_modify]
    cases scenes[i]? with
    | none => rfl
    | some scene =>
      simp only [Option.map_eq_map, Option.map_some]
      split <;> rfl

/-- With a scene in the list the queued index, or 0 in its place, is that of one. -/
theorem enterScene_spec {m : SceneManager} (loading : Loading) (hscenes : m.allScenes ≠ []) :
    ∃ t, m.enterScene loading = some t ∧ t.OnCurrent := by
  have hsize : 0 < m.allScenes.length := List.length_pos_iff.mpr hscenes
  have hle := toInt_le m.allScenes.length
  generalize hqueued : (if m.queuedSceneIndex < 0 ∨ m.queuedSceneIndex ≥ toInt m.allScenes.length then 0
    else m.queuedSceneIndex) = queued
  have hrange : queued.toNat < m.allScenes.length := by
    rw [← hqueued]
    split <;> omega
  obtain ⟨scene, hscene⟩ : ∃ scene, m.allScenes[queued.toNat]? = some scene :=
    ⟨_, List.getElem?_eq_getElem hrange⟩
  refine ⟨_, by simp only [enterScene, hqueued, hscene]; rfl, ?_⟩
  have hkept := rename_getElem? m.allScenes queued.toNat loading.sceneName queued.toNat
  rw [hscene, Option.map_some, Option.map_eq_some_iff] at hkept
  obtain ⟨renamed, hrenamed, haddress⟩ := hkept
  exact ⟨renamed, hrenamed, by rw [haddress]⟩

theorem enterScene_nil {m : SceneManager} (loading : Loading) (hscenes : m.allScenes = []) :
    m.enterScene loading = none := by
  simp [enterScene, hscenes]

/-- Asking for a scene by a name that none has raises the flag. -/
theorem switchSceneByName_unknown {m : SceneManager} {name : String} (h : m.Unknown name) :
    m.switchSceneByName name = { m with switchingScenes := true } := by
  have hnone : m.allScenes.findIdx? (fun scene => scene.sceneName == name) = none := by
    rw [List.findIdx?_eq_none_iff]
    intro scene hscene
    exact beq_eq_false_iff_ne.mpr (h scene hscene)
  simp only [switchSceneByName, hnone]

theorem applySceneSwitch_spec {m : SceneManager} (hm : m.Consistent) (address : Nat) (loading : Loading)
    (hsafe : m.switchingScenes = true → m.allScenes ≠ []) :
    ∃ t, m.applySceneSwitch address loading = some t ∧ t.OnCurrent := by
  cases hswitching : m.switchingScenes with
  | true =>
    simp only [applySceneSwitch, hswitching, if_true]
    exact enterScene_spec loading (hsafe hswitching)
  | false =>
    cases hcurrent : m.currentScene with
    | some current =>
      refine ⟨m, by simp [applySceneSwitch, hswitching, hcurrent], ?_⟩
      cases hm with
      | inl hnone => exact absurd (hcurrent.symm.trans hnone) (by simp)
      | inr hentry => exact hentry
    | none =>
      simp only [applySceneSwitch, hswitching, hcurrent, Option.isSome_none, Bool.false_eq_true, if_false]
      apply enterScene_spec
      cases hscenes : m.allScenes <;> simp

/-- What a switch is asked for leaves the current scene alone. -/
theorem consistent_enqueueScene {m : SceneManager} (hm : m.Consistent) (scene : SceneObject) :
    (m.enqueueScene scene).Consistent := by
  cases hm with
  | inl hnone => exact .inl hnone
  | inr hentry =>
    obtain ⟨current, hcurrent, haddress⟩ := hentry
    right
    refine ⟨current, ?_, haddress⟩
    obtain ⟨hrange, _⟩ := List.getElem?_eq_some_iff.mp hcurrent
    rw [← hcurrent]
    exact List.getElem?_append_left hrange

theorem consistent_switchSceneByName {m : SceneManager} (hm : m.Consistent) (name : String) :
    (m.switchSceneByName name).Consistent := by
  unfold switchSceneByName
  split <;> exact hm

theorem perform_safe {m : SceneManager} {e : Operation} (hm : m.Consistent) (hsafe : Safe m e) :
    ∃ t, perform m e = some t ∧ Meets m e t ∧ t.Consistent := by
  cases e with
  | enqueueScene scene => exact ⟨_, rfl, trivial, consistent_enqueueScene hm scene⟩
  | switchScene =>
    have hsize : m.allScenes.length ≠ 0 := fun hzero => hsafe (List.eq_nil_of_length_eq_zero hzero)
    exact ⟨_, if_neg hsize, trivial, hm⟩
  | switchSceneTo idx => exact ⟨_, rfl, trivial, hm⟩
  | switchSceneByName name =>
    refine ⟨_, rfl, fun hunknown => ?_, consistent_switchSceneByName hm name⟩
    rw [switchSceneByName_unknown hunknown, ← hsafe hunknown]
  | applySceneSwitch address loading =>
    obtain ⟨t, happly, hcurrent⟩ := applySceneSwitch_spec hm address loading hsafe
    exact ⟨t, happly, hcurrent, .inr hcurrent⟩

theorem perform_unsafe {m : SceneManager} {e : Operation} (hnot : ¬ Safe m e) (t : SceneManager)
    (hperform : perform m e = some t) : ¬ Meets m e t := by
  cases e with
  | enqueueScene scene | switchSceneTo idx => exact absurd trivial hnot
  | switchScene =>
    have hempty : m.allScenes = [] := Classical.not_not.mp hnot
    simp [perform, switchScene, hempty] at hperform
  | switchSceneByName name =>
    rw [Safe, Classical.not_imp] at hnot
    obtain ⟨hunknown, hidle⟩ := hnot
    intro hmeets
    cases hperform
    have hsame := hmeets hunknown
    rw [switchSceneByName_unknown hunknown] at hsame
    exact hidle (by rw [← hsame])
  | applySceneSwitch address loading =>
    rw [Safe, Classical.not_imp, Classical.not_not] at hnot
    simp only [perform, applySceneSwitch, hnot.1, if_true, enterScene_nil loading hnot.2] at hperform
    cases hperform

/-- Over every sequence of calls: no access is out of range, every `ApplySceneSwitch` leaves
the entry at the current index current and every unknown name leaves the manager as it was,
exactly when every call is safe. -/
theorem calls_meet_iff (es : List Operation) :
    calls.Performs Meets init es ↔ calls.Throughout Safe init es :=
  Runs.System.performs_iff_throughout (I := Consistent) (fun _ _ hm _ hsafe => perform_safe hm hsafe)
    (fun _ _ _ _ hnot t hperform => perform_unsafe hnot t hperform) es (.inl rfl)

/-- The name is unknown, yet the scene with index 0 is entered again. -/
theorem calls_unknownName :
    ¬ calls.Performs Meets init
      [.enqueueScene ⟨0, "Physics"⟩, .applySceneSwitch 1 ⟨none, false⟩, .switchSceneByName "Terrain"] := by
  intro h
  obtain ⟨_, henqueue, _, h⟩ := h trivial
  cases henqueue
  obtain ⟨m, happly, _, h⟩ := h trivial
  have hentered : perform (init.enqueueScene ⟨0, "Physics"⟩) (.applySceneSwitch 1 ⟨none, false⟩) =
      some ⟨0, some 0, [⟨0, "Physics"⟩], false, 0⟩ := by decide +kernel
  cases hentered.symm.trans happly
  obtain ⟨_, hswitch, hmeets, _⟩ := h trivial
  cases hswitch
  exact absurd (hmeets (by decide)) (by decide)

end SceneManager

end Lumos.Scene
