import Lumos.Physics.IntegrationTypes

/-!
# Falling asleep

An update ends with a test of how much a body has moved lately. A body that is at rest is not
updated any more until it is woken up.
-/
namespace Lumos.Physics.Dynamics.RigidBody3D

open Maths FloatArithmetic FloatLiterals

/-- What happens to a body that is not woken up: the solver sets its velocities, and the engine updates it. -/
inductive Happening (K : Type) where
  | solved (linearVelocity angularVelocity : Vector3 K)
  | updated (engine : EngineSettings K)

section Happenings

variable {K : Type} [FloatInfinity K]

def happen (body : RigidBody3D K) : Happening K → RigidBody3D K
  | .solved linearVelocity angularVelocity =>
    (body.setLinearVelocity linearVelocity).setAngularVelocity angularVelocity
  | .updated engine => body.update engine

/-- What the test takes the average of. -/
def energy (body : RigidBody3D K) : K := body.linearVelocity.lengthSquared + body.angularVelocity.lengthSquared

/-- After each update the body has no more energy than this. -/
def Quiet (bound : K) : RigidBody3D K → List (Happening K) → Prop
  | _, [] => True
  | body, .solved linearVelocity angularVelocity :: run =>
    Quiet bound (body.happen (.solved linearVelocity angularVelocity)) run
  | body, .updated engine :: run =>
    le (body.update engine).energy bound = true ∧ Quiet bound (body.update engine) run

def updateCount : List (Happening K) → Nat
  | [] => 0
  | .solved _ _ :: run => updateCount run
  | .updated _ :: run => updateCount run + 1

/-- All that the test goes by, but for the velocities. -/
structure SameRest (a b : RigidBody3D K) : Prop where
  isStatic : a.isStatic = b.isStatic
  isAtRest : a.isAtRest = b.isAtRest
  threshold : a.restVelocityThresholdSquared = b.restVelocityThresholdSquared
  average : a.averageSummedVelocity = b.averageSummedVelocity

omit [FloatInfinity K] in
theorem SameRest.trans {a b c : RigidBody3D K} (hab : SameRest a b) (hbc : SameRest b c) : SameRest a c :=
  ⟨hab.1.trans hbc.1, hab.2.trans hbc.2, hab.3.trans hbc.3, hab.4.trans hbc.4⟩

theorem sameRest_solved (body : RigidBody3D K) (linearVelocity angularVelocity : Vector3 K) :
    SameRest (body.happen (.solved linearVelocity angularVelocity)) body := by
  have hlinear : SameRest (body.setLinearVelocity linearVelocity) body := by
    unfold setLinearVelocity
    split <;> exact ⟨rfl, rfl, rfl, rfl⟩
  refine SameRest.trans ?_ hlinear
  simp only [happen, setAngularVelocity]
  split <;> exact ⟨rfl, rfl, rfl, rfl⟩

theorem sameRest_integrate (engine : EngineSettings K) (body : RigidBody3D K) :
    SameRest ((body.applyGravity engine).integrate engine) body := by
  have hgravity : SameRest (body.applyGravity engine) body := by
    unfold applyGravity
    split <;> exact ⟨rfl, rfl, rfl, rfl⟩
  refine SameRest.trans ?_ hgravity
  unfold integrate
  split <;> exact ⟨rfl, rfl, rfl, rfl⟩

end Happenings

variable {body : RigidBody3D ℝ}

theorem restTest_energy (body : RigidBody3D ℝ) : body.restTest.energy = body.energy := by
  unfold restTest
  split <;> rfl

/-- What the test leaves: the average moves towards the energy, and decides. -/
theorem restTest_spec (h : 0 < body.restVelocityThresholdSquared) :
    body.restTest.isStatic = body.isStatic ∧
      body.restTest.restVelocityThresholdSquared = body.restVelocityThresholdSquared ∧
      body.restTest.averageSummedVelocity = 3 / 10 * body.averageSummedVelocity + 7 / 10 * body.energy ∧
      (body.restTest.isAtRest = true ↔
        body.restTest.averageSummedVelocity ≤ body.restVelocityThresholdSquared) := by
  have htest : ¬ le body.restVelocityThresholdSquared 0 = true := fun hle => absurd ((le_real _ _).mp hle) (not_le.mpr h)
  have haverage : body.restTest.averageSummedVelocity =
      body.averageSummedVelocity + literal (7 / 10) * (body.energy - body.averageSummedVelocity) := by
    rw [restTest, if_neg htest]
    rfl
  refine ⟨?_, ?_, ?_, ?_⟩
  · rw [restTest, if_neg htest]
    rfl
  · rw [restTest, if_neg htest]
    rfl
  · rw [haverage, literal_real]
    push_cast
    ring
  · rw [haverage, restTest, if_neg htest]
    exact le_real _ _

/-- The same of an update. -/
theorem update_spec (engine : EngineSettings ℝ) (hstatic : body.isStatic = false) (hawake : body.isAtRest = false)
    (h : 0 < body.restVelocityThresholdSquared) :
    (body.update engine).isStatic = false ∧
      (body.update engine).restVelocityThresholdSquared = body.restVelocityThresholdSquared ∧
      (body.update engine).averageSummedVelocity =
        3 / 10 * body.averageSummedVelocity + 7 / 10 * (body.update engine).energy ∧
      ((body.update engine).isAtRest = true ↔
        (body.update engine).averageSummedVelocity ≤ body.restVelocityThresholdSquared) := by
  have hsame := sameRest_integrate engine body
  have hcondition : (!body.isStatic && !body.isAtRest) = true := by simp [hstatic, hawake]
  have htest := @restTest_spec { (body.applyGravity engine).integrate engine with
    wsTransform := ((body.applyGravity engine).integrate engine).wsTransform.invalidate
    wsAabb := ((body.applyGravity engine).integrate engine).wsAabb.invalidate } (h.trans_eq hsame.threshold.symm)
  rw [update, if_pos hcondition]
  obtain ⟨hfixed, hthreshold, haverage, hrest⟩ := htest
  refine ⟨hfixed.trans (hsame.isStatic.trans hstatic), hthreshold.trans hsame.threshold, ?_, ?_⟩
  · rw [restTest_energy]
    exact haverage.trans (by rw [← hsame.average])
  · rw [← hsame.threshold]
    exact hrest

/-! ## Runs -/

/-- After `k` updates: what is left of the average the body has come with has shrunk as often, and the body is only
awake if the last test has found too much. -/
structure Settling (quiet start threshold : ℝ) (k : Nat) (body : RigidBody3D ℝ) : Prop where
  isStatic : body.isStatic = false
  same : body.restVelocityThresholdSquared = threshold
  average : body.isAtRest = false → body.averageSummedVelocity ≤ quiet + (3 / 10) ^ k * start
  awake : body.isAtRest = false → 0 < k → threshold < body.averageSummedVelocity

variable {quiet start threshold : ℝ} {k : Nat}

theorem Settling.of_same (h : Settling quiet start threshold k body) {now : RigidBody3D ℝ} (hnow : SameRest now body) :
    Settling quiet start threshold k now := by
  refine ⟨hnow.isStatic.trans h.isStatic, hnow.threshold.trans h.same, ?_, ?_⟩
  · rw [hnow.isAtRest, hnow.average]
    exact h.average
  · rw [hnow.isAtRest, hnow.average]
    exact h.awake

theorem Settling.update (h : Settling quiet start threshold k body) (hthreshold : 0 < threshold)
    {engine : EngineSettings ℝ} (hquiet : (body.update engine).energy ≤ quiet) :
    Settling quiet start threshold (k + 1) (body.update engine) := by
  cases hrest : body.isAtRest with
  | true =>
    have hupdate : body.update engine = body := if_neg (by simp [hrest])
    rw [hupdate]
    exact ⟨h.isStatic, h.same, fun hawake => by simp [hrest] at hawake, fun hawake => by simp [hrest] at hawake⟩
  | false =>
    obtain ⟨hstatic, hsame, haverage, htest⟩ := update_spec engine h.isStatic hrest (hthreshold.trans_eq h.same.symm)
    refine ⟨hstatic, hsame.trans h.same, fun _ => ?_, fun hawake _ => ?_⟩
    · have hbefore := h.average hrest
      rw [haverage, pow_succ]
      linarith
    · rw [h.same] at htest
      by_contra hle
      rw [htest.mpr (not_lt.mp hle)] at hawake
      exact Bool.noConfusion hawake

theorem Settling.run (hthreshold : 0 < threshold) (run : List (Happening ℝ))
    (h : Settling quiet start threshold k body) (hquiet : Quiet quiet body run) :
    Settling quiet start threshold (k + updateCount run) (run.foldl happen body) := by
  induction run generalizing body k with
  | nil => exact h
  | cons happening run ih =>
    cases happening with
    | solved linearVelocity angularVelocity =>
      exact ih (h.of_same (sameRest_solved body linearVelocity angularVelocity)) hquiet
    | updated engine =>
      obtain ⟨hfirst, hrest⟩ := hquiet
      have hnext := ih (h.update hthreshold ((le_real _ _).mp hfirst)) hrest
      rw [Nat.add_right_comm] at hnext
      exact hnext

/-- However the solver sets its velocities, a body that shows no more than so much energy after its updates is at rest
as soon as what is left of the average it has come with fits under the threshold. -/
theorem isAtRest_of_quiet (quiet : ℝ) (body : RigidBody3D ℝ) (run : List (Happening ℝ)) (hstatic : body.isStatic = false)
    (hthreshold : 0 < body.restVelocityThresholdSquared) (h0 : 0 ≤ quiet) (hquiet : Quiet quiet body run)
    (hupdates : 0 < updateCount run)
    (hlong : quiet + (3 / 10) ^ updateCount run * body.averageSummedVelocity ≤ body.restVelocityThresholdSquared) :
    (run.foldl happen body).isAtRest = true := by
  have hstart : Settling quiet body.averageSummedVelocity body.restVelocityThresholdSquared 0 body := by
    refine ⟨hstatic, rfl, fun _ => ?_, fun _ hk => absurd hk (Nat.lt_irrefl 0)⟩
    rw [pow_zero, one_mul]
    linarith
  have hend := hstart.run hthreshold run hquiet
  rw [Nat.zero_add] at hend
  by_contra hawake
  rw [Bool.not_eq_true] at hawake
  have hbelow := hend.average hawake
  have habove := hend.awake hawake hupdates
  linarith

/-- Something that has moved and is stopped at once. -/
noncomputable def braked : RigidBody3D ℝ :=
  { crate with restVelocityThresholdSquared := 1, averageSummedVelocity := 1 + 1 }

/-- Nothing is left of a velocity. -/
noncomputable def braking : EngineSettings ℝ := ⟨0, 0, 1, .RUNGE_KUTTA_4⟩

theorem energy_braked : (braked.update braking).energy = 0 := by
  obtain ⟨position, hupdate⟩ := update_rungeKutta braking braked rfl rfl (.inr rfl)
  have henergy : (braked.update braking).energy = (braked.moved braking).energy := by
    rw [hupdate]
    rfl
  rw [henergy, moved, restTest_energy]
  simp [energy, newLinearVelocity, newAngularVelocity, braking, Vector3.lengthSquared_real]

theorem isAtRest_of_quiet_braked :
    ([.solved braked.linearVelocity braked.angularVelocity, .updated braking].foldl happen braked).isAtRest = true := by
  have hsolved : braked.happen (.solved braked.linearVelocity braked.angularVelocity) = braked := rfl
  refine isAtRest_of_quiet 0 braked _ rfl one_pos le_rfl ⟨?_, trivial⟩ Nat.one_pos ?_
  · rw [hsolved, le_real, energy_braked]
  · simp only [updateCount, braked]
    norm_num

end Lumos.Physics.Dynamics.RigidBody3D
