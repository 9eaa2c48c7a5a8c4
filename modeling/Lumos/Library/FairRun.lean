import Mathlib.Order.Defs.LinearOrder
import Mathlib.Data.Nat.Find

/-!
# Fair runs

Agents take turns in an infinite run; at a turn it may also be that none of them acts. A
run is fair if no agent that could act from some turn on stays idle for ever.
-/
namespace Lumos.FairRun

variable {σ agent : Type} {step : σ → Option agent → σ → Prop} {enabled : agent → σ → Prop}

structure Run (step : σ → Option agent → σ → Prop) (start : σ) where
  state : Nat → σ
  acts : Nat → Option agent
  init : state 0 = start
  next : ∀ k, step (state k) (acts k) (state (k + 1))

namespace Run

variable {s : σ}

def Fair (enabled : agent → σ → Prop) (ρ : Run step s) : Prop :=
  ∀ a k, (∀ m, k ≤ m → enabled a (ρ.state m)) → ∃ m, k ≤ m ∧ ρ.acts m = some a

/-- What holds at the start and is kept by every step holds all along. -/
theorem invariant (I : σ → Prop) (hs : I s) (hstep : ∀ s a t, I s → step s a t → I t) (ρ : Run step s)
    (k : Nat) : I (ρ.state k) := by
  induction k with
  | zero =>
    rw [ρ.init]
    exact hs
  | succ k ih => exact hstep _ _ _ ih (ρ.next k)

/-- From some turn on a quantity that never increases stays the same. -/
theorem settles (Φ : σ → Nat) (hstep : ∀ s a t, step s a t → Φ t ≤ Φ s) (ρ : Run step s) :
    ∃ k, ∀ m, k ≤ m → Φ (ρ.state m) = Φ (ρ.state k) := by
  have hmono : ∀ k d, Φ (ρ.state (k + d)) ≤ Φ (ρ.state k) := by
    intro k d
    induction d with
    | zero => exact Nat.le_refl _
    | succ d ih => exact Nat.le_trans (hstep _ _ _ (ρ.next (k + d))) ih
  have hvalue : ∃ v, ∃ k, Φ (ρ.state k) = v := ⟨_, 0, rfl⟩
  classical
  obtain ⟨k, hk⟩ := Nat.find_spec hvalue
  refine ⟨k, fun m hm => ?_⟩
  obtain ⟨d, rfl⟩ := Nat.exists_eq_add_of_le hm
  have hle := hmono k d
  have hleast : Nat.find hvalue ≤ Φ (ρ.state (k + d)) := Nat.find_min' hvalue ⟨k + d, rfl⟩
  omega

/-- In a fair run an agent acts in a situation that lasts until it does. -/
theorem Fair.acts {ρ : Run step s} (hfair : ρ.Fair enabled) {a : agent} {P : σ → Prop} {k : Nat}
    (hlasts : ∀ m, k ≤ m → P (ρ.state m) → ρ.acts m ≠ some a → P (ρ.state (m + 1)))
    (henabled : ∀ s, P s → enabled a s) (hk : P (ρ.state k)) :
    ∃ m, k ≤ m ∧ P (ρ.state m) ∧ ρ.acts m = some a := by
  by_contra hnever
  have hidle : ∀ m, k ≤ m → P (ρ.state m) → ρ.acts m ≠ some a := fun m hm hP hacts =>
    hnever ⟨m, hm, hP, hacts⟩
  have hall : ∀ m, k ≤ m → P (ρ.state m) := by
    intro m hm
    induction m, hm using Nat.le_induction with
    | base => exact hk
    | succ m hm ih => exact hlasts m hm ih (hidle m hm ih)
  obtain ⟨m, hm, hacts⟩ := hfair a k fun m hm => henabled _ (hall m hm)
  exact hidle m hm (hall m hm) hacts

/-! ## Runs that come to rest -/

/-- Nobody acts any more. -/
def rest (s : σ) (h : step s none s) : Run step s where
  state := fun _ => s
  acts := fun _ => none
  init := rfl
  next := fun _ => h

/-- One step, and then a run from where it leads. -/
def after {t : σ} {a : Option agent} (h : step s a t) (ρ : Run step t) : Run step s where
  state := fun k => k.casesOn s ρ.state
  acts := fun k => k.casesOn a ρ.acts
  init := rfl
  next := fun k => by
    cases k with
    | zero =>
      change step s a (ρ.state 0)
      rw [ρ.init]
      exact h
    | succ k => exact ρ.next k

theorem rest_fair (h : step s none s) (hidle : ∀ a, ¬ enabled a s) : (rest s h).Fair enabled := by
  intro a k hall
  exact absurd (hall k (Nat.le_refl k)) (hidle a)

theorem after_fair {t : σ} {a : Option agent} (h : step s a t) {ρ : Run step t} (hfair : ρ.Fair enabled) :
    (after h ρ).Fair enabled := by
  intro b k hall
  obtain ⟨m, hm, hacts⟩ := hfair b k fun m hm => hall (m + 1) (by omega)
  exact ⟨m + 1, by omega, hacts⟩

/-- Some fair run from here comes to rest in a state with this property. -/
def RestsIn (step : σ → Option agent → σ → Prop) (enabled : agent → σ → Prop) (P : σ → Prop) (s : σ) :
    Prop :=
  ∃ ρ : Run step s, ρ.Fair enabled ∧ ∃ k, ∀ m, k ≤ m → P (ρ.state m)

theorem restsIn_rest {P : σ → Prop} (h : step s none s) (hidle : ∀ a, ¬ enabled a s) (hP : P s) :
    RestsIn step enabled P s :=
  ⟨rest s h, rest_fair h hidle, 0, fun _ _ => hP⟩

theorem restsIn_after {P : σ → Prop} {t : σ} (a : Option agent) (h : step s a t)
    (ht : RestsIn step enabled P t) : RestsIn step enabled P s := by
  obtain ⟨ρ, hfair, k, hP⟩ := ht
  refine ⟨after h ρ, after_fair h hfair, k + 1, fun m hm => ?_⟩
  cases m with
  | zero => omega
  | succ m => exact hP m (by omega)

end Run

end Lumos.FairRun
