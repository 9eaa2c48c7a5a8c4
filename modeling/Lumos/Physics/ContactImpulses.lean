import Lumos.Library.Runs
import Lumos.Maths.ExactArithmetic
import Lumos.Physics.ConstraintSolver

/-!
# The accumulated impulses of a contact

The sum of the normal impulses is clamped at every turn of a contact, that of the friction
impulses only where the bodies slide fast enough. In between the cone may have become narrower.
-/
namespace Lumos.Physics.Dynamics

open Maths FloatArithmetic FloatLiterals Exchange Runs

variable {n : Nat}

section Contacts

variable {K : Type} [FloatInfinity K]

def frictionCoef (a b : RigidBody3D K) : K := sqrtf (a.friction * b.friction)

/-- The contact pushes only, and its friction is within the cone. -/
def ContactPoint.InCone (coef : K) (c : ContactPoint K) : Prop :=
  le c.sumImpulseContact 0 = true ∧ le (fabs c.sumImpulseFriction) (coef * -c.sumImpulseContact) = true

instance (coef : K) (c : ContactPoint K) : Decidable (c.InCone coef) := inferInstanceAs (Decidable (_ ∧ _))

/-- How the point of one body slides along that of the other. -/
def slide (a b : RigidBody3D K) (c : ContactPoint K) : Vector3 K :=
  let dv := pointVelocity a c.relPosA - pointVelocity b c.relPosB
  dv - c.collisionNormal * dv.dotProduct c.collisionNormal

/-- The normal impulses with that of the next turn. -/
def nextSum (deltaTime : K) (a b : RigidBody3D K) (c : ContactPoint K) : K :=
  (contactImpulse deltaTime a b c (pointVelocity a c.relPosA - pointVelocity b c.relPosB)).2

/-- At its turn a contact has no friction impulse that the normal impulses do not cover, or it
slides fast enough for the friction to be clamped. -/
def Covered (deltaTime : K) (a b : Fin n) (bodies : Fin n → RigidBody3D K) (c : ContactPoint K) : Prop :=
  immovable (bodies a) (bodies b) = true ∨ lt (literal (1 / 1000)) (slide (bodies a) (bodies b) c).length = true ∨
    le (fabs c.sumImpulseFriction)
      (frictionCoef (bodies a) (bodies b) * -nextSum deltaTime (bodies a) (bodies b) c) = true

end Contacts

theorem frictionCoef_nonneg (a b : RigidBody3D ℝ) : 0 ≤ frictionCoef a b := Real.sqrt_nonneg _

theorem nextSum_nonpos (deltaTime : ℝ) (a b : RigidBody3D ℝ) (c : ContactPoint ℝ) : nextSum deltaTime a b c ≤ 0 := by
  rw [nextSum, contactImpulse]
  simp only [minFloat_real]
  exact min_le_right _ _

theorem abs_clamp_le {bound : ℝ} (h : bound ≤ 0) (x : ℝ) : |min (max x bound) (-bound)| ≤ -bound := by
  have hle : bound ≤ max x bound := le_max_right x bound
  rw [abs_le]
  constructor
  · rw [neg_neg]
    exact le_min hle (by linarith)
  · exact min_le_right _ _

/-- The clamp of the friction. -/
theorem abs_frictionImpulse_le (a b : RigidBody3D ℝ) (c : ContactPoint ℝ) (dv tangent : Vector3 ℝ)
    (h : c.sumImpulseContact ≤ 0) :
    |(frictionImpulse a b c dv tangent).2| ≤ frictionCoef a b * -c.sumImpulseContact := by
  have hmax : frictionCoef a b * c.sumImpulseContact ≤ 0 :=
    mul_nonpos_of_nonneg_of_nonpos (frictionCoef_nonneg a b) h
  rw [mul_neg, frictionImpulse]
  simp only [minFloat_real, maxFloat_real]
  exact abs_clamp_le hmax _

/-! ## One turn -/

variable (deltaTime : ℝ) (a b : Fin n) (bodies : Fin n → RigidBody3D ℝ) (c : ContactPoint ℝ)

@[simp] theorem setLinearVelocity_friction (body : RigidBody3D ℝ) (v : Vector3 ℝ) :
    (body.setLinearVelocity v).friction = body.friction := by
  unfold RigidBody3D.setLinearVelocity
  split <;> rfl

@[simp] theorem setAngularVelocity_friction (body : RigidBody3D ℝ) (v : Vector3 ℝ) :
    (body.setAngularVelocity v).friction = body.friction := by
  unfold RigidBody3D.setAngularVelocity
  split <;> rfl

theorem update_friction {body : RigidBody3D ℝ} {i : Fin n} (h : body.friction = (bodies i).friction) (k : Fin n) :
    (Function.update bodies i body k).friction = (bodies k).friction := by
  by_cases hk : k = i
  · subst hk
    rw [Function.update_self, h]
  · rw [Function.update_of_ne hk]

theorem applyImpulsePair_friction (r1 r2 direction : Vector3 ℝ) (j : ℝ) (k : Fin n) :
    (applyImpulsePair bodies a b r1 r2 direction j k).friction = (bodies k).friction := by
  dsimp only [applyImpulsePair]
  rw [update_friction _ (setAngularVelocity_friction _ _), update_friction _ (setAngularVelocity_friction _ _),
    update_friction _ (setLinearVelocity_friction _ _), update_friction _ (setLinearVelocity_friction _ _)]

theorem solveContactPoint_immovable (h : immovable (bodies a) (bodies b) = true) :
    solveContactPoint deltaTime a b bodies c = (bodies, c) := by
  rw [solveContactPoint, if_pos h]

/-- Too slow for friction, the sum of the friction impulses stays what it was. -/
theorem solveContactPoint_sticking (h : immovable (bodies a) (bodies b) = false)
    (hslide : lt (literal (1 / 1000)) (slide (bodies a) (bodies b) c).length = false) :
    (solveContactPoint deltaTime a b bodies c).2 =
      { c with sumImpulseContact := nextSum deltaTime (bodies a) (bodies b) c } := by
  have hnot : ¬ lt (literal (1 / 1000)) (slide (bodies a) (bodies b) c).length = true := by
    rw [hslide]
    exact Bool.false_ne_true
  rw [solveContactPoint, h, if_neg Bool.false_ne_true]
  exact congrArg Prod.snd (if_neg hnot)

theorem solveContactPoint_sliding (h : immovable (bodies a) (bodies b) = false)
    (hslide : lt (literal (1 / 1000)) (slide (bodies a) (bodies b) c).length = true) :
    ∃ (bodies' : Fin n → RigidBody3D ℝ) (dv tangent : Vector3 ℝ),
      frictionCoef (bodies' a) (bodies' b) = frictionCoef (bodies a) (bodies b) ∧
      (solveContactPoint deltaTime a b bodies c).2 =
        { c with
          sumImpulseContact := nextSum deltaTime (bodies a) (bodies b) c
          sumImpulseFriction := (frictionImpulse (bodies' a) (bodies' b)
            { c with sumImpulseContact := nextSum deltaTime (bodies a) (bodies b) c } dv tangent).2 } := by
  rw [solveContactPoint, h, if_neg Bool.false_ne_true]
  refine ⟨_, _, _, ?_, congrArg Prod.snd (if_pos hslide)⟩
  rw [frictionCoef, applyImpulsePair_friction, applyImpulsePair_friction]
  rfl

theorem solveContactPoint_friction (k : Fin n) :
    ((solveContactPoint deltaTime a b bodies c).1 k).friction = (bodies k).friction := by
  unfold solveContactPoint
  split
  · rfl
  · dsimp only
    split
    · rw [applyImpulsePair_friction, applyImpulsePair_friction]
    · rw [applyImpulsePair_friction]

variable {deltaTime a b bodies c}

theorem solveContactPoint_inCone_iff (h : c.InCone (frictionCoef (bodies a) (bodies b))) :
    (solveContactPoint deltaTime a b bodies c).2.InCone (frictionCoef (bodies a) (bodies b)) ↔
      Covered deltaTime a b bodies c := by
  cases himmovable : immovable (bodies a) (bodies b) with
  | true =>
    rw [solveContactPoint_immovable _ _ _ _ _ himmovable]
    exact ⟨fun _ => .inl himmovable, fun _ => h⟩
  | false =>
    have hnot : ¬ immovable (bodies a) (bodies b) = true := by rw [himmovable]; exact Bool.false_ne_true
    have hsum := nextSum_nonpos deltaTime (bodies a) (bodies b) c
    cases hslide : lt (literal (1 / 1000)) (slide (bodies a) (bodies b) c).length with
    | true =>
      obtain ⟨bodies', dv, tangent, hcoef, hturn⟩ := solveContactPoint_sliding deltaTime a b bodies c himmovable hslide
      rw [hturn]
      refine ⟨fun _ => .inr (.inl hslide), fun _ => ⟨(le_real _ _).mpr hsum, (le_real _ _).mpr ?_⟩⟩
      rw [← hcoef]
      exact abs_frictionImpulse_le _ _ _ _ _ hsum
    | false =>
      have hslow : ¬ lt (literal (1 / 1000)) (slide (bodies a) (bodies b) c).length = true := by
        rw [hslide]
        exact Bool.false_ne_true
      rw [solveContactPoint_sticking deltaTime a b bodies c himmovable hslide, Covered, or_iff_right hnot,
        or_iff_right hslow]
      exact ⟨fun hcone => hcone.2, fun hcovered => ⟨(le_real _ _).mpr hsum, hcovered⟩⟩

/-! ## A manifold while the solver works -/

section Steps

variable {K : Type} [FloatInfinity K]

inductive SolverStep (n : Nat) (K : Type) where
  | preSolverStep
  | applyImpulse (deltaTime : K)
  /-- Whatever else happens to the velocities. -/
  | move (linear angular : Fin n → Vector3 K)

def performStep (s : (Fin n → RigidBody3D K) × Manifold n K) :
    SolverStep n K → (Fin n → RigidBody3D K) × Manifold n K
  | .preSolverStep => (s.1, s.2.preSolverStep s.1)
  | .applyImpulse deltaTime => s.2.applyImpulse deltaTime s.1
  | .move linear angular =>
    (fun k => { s.1 k with linearVelocity := linear k, angularVelocity := angular k }, s.2)

/-- Nothing faults. -/
def solverSystem : System ((Fin n → RigidBody3D K) × Manifold n K) (SolverStep n K) where
  inScope := fun _ _ => True
  perform := fun s step => some (performStep s step)

/-- All contacts are in the cone. -/
def WithinCones (s : (Fin n → RigidBody3D K) × Manifold n K) : Prop :=
  ∀ c ∈ s.2.contacts, c.InCone (frictionCoef (s.1 s.2.nodeA) (s.1 s.2.nodeB))

instance (s : (Fin n → RigidBody3D K) × Manifold n K) : Decidable (WithinCones s) :=
  inferInstanceAs (Decidable (∀ c ∈ s.2.contacts, c.InCone _))

def StepCovered (s : (Fin n → RigidBody3D K) × Manifold n K) : SolverStep n K → Prop
  | .applyImpulse deltaTime =>
    Meets (solveContactPoint deltaTime s.2.nodeA s.2.nodeB) (Covered deltaTime s.2.nodeA s.2.nodeB) s.1 s.2.contacts
  | _ => True

end Steps

variable {s : (Fin n → RigidBody3D ℝ) × Manifold n ℝ}

/-- A contact whose sums start again. -/
theorem inCone_of_zero (coef : ℝ) (hcontact : c.sumImpulseContact = 0) (hfriction : c.sumImpulseFriction = 0) :
    c.InCone coef := by
  rw [ContactPoint.InCone, hcontact, hfriction, le_real, le_real, fabs_real, abs_zero]
  change (0 : ℝ) ≤ 0 ∧ (0 : ℝ) ≤ coef * -0
  simp

theorem thread_friction (items : List (ContactPoint ℝ)) (k : Fin n) :
    ((thread (solveContactPoint deltaTime a b) bodies items).1 k).friction = (bodies k).friction := by
  have hkeeps : ∀ k, ((thread (solveContactPoint deltaTime a b) bodies items).1 k).friction = (bodies k).friction :=
    thread_preserves (solveContactPoint deltaTime a b) (P := fun now => ∀ k, (now k).friction = (bodies k).friction)
      (fun now c h k => (solveContactPoint_friction deltaTime a b now c k).trans (h k)) items fun _ => rfl
  exact hkeeps k

/-- What a step does to the cones. -/
theorem withinCones_performStep (hs : WithinCones s) (step : SolverStep n ℝ) :
    WithinCones (performStep s step) ↔ StepCovered s step := by
  cases step with
  | preSolverStep =>
    refine ⟨fun _ => trivial, fun _ c hc => ?_⟩
    obtain ⟨c', -, rfl⟩ := List.mem_map.mp hc
    exact inCone_of_zero _ rfl rfl
  | move linear angular => exact ⟨fun _ => trivial, fun _ => hs⟩
  | applyImpulse deltaTime =>
    have hcoef : frictionCoef ((performStep s (.applyImpulse deltaTime)).1 s.2.nodeA)
        ((performStep s (.applyImpulse deltaTime)).1 s.2.nodeB) = frictionCoef (s.1 s.2.nodeA) (s.1 s.2.nodeB) := by
      rw [frictionCoef, frictionCoef]
      exact congrArg₂ (fun x y => sqrtf (x * y)) (thread_friction s.2.contacts s.2.nodeA)
        (thread_friction s.2.contacts s.2.nodeB)
    unfold WithinCones
    rw [show (performStep s (.applyImpulse deltaTime)).2.nodeA = s.2.nodeA from rfl,
      show (performStep s (.applyImpulse deltaTime)).2.nodeB = s.2.nodeB from rfl, hcoef]
    refine thread_forall_iff _ (I := fun bodies => ∀ k, (bodies k).friction = (s.1 k).friction) ?_ ?_ s.2.contacts
      (fun _ => rfl) hs
    · exact fun bodies c h k => (solveContactPoint_friction _ _ _ bodies c k).trans (h k)
    · intro bodies c h hc
      have hsame : frictionCoef (s.1 s.2.nodeA) (s.1 s.2.nodeB) =
          frictionCoef (bodies s.2.nodeA) (bodies s.2.nodeB) := by
        rw [frictionCoef, frictionCoef, h, h]
      rw [hsame] at hc ⊢
      exact solveContactPoint_inCone_iff hc

/-- Two bodies of mass and friction one. -/
def cubes {K : Type} [FloatInfinity K] : Fin 2 → RigidBody3D K :=
  fun _ => .create ⟨0, 0, 0, 1, ⟨1, 0, 0, 0⟩, 0, 0, false, 1, 1, false, none⟩

/-- A contact of theirs. -/
def touching {K : Type} [FloatInfinity K] : Manifold 2 K := ⟨0, 1, [⟨0, 0, 1, 0, ⟨1, 0, 0⟩, 0, 0⟩]⟩

end Lumos.Physics.Dynamics
