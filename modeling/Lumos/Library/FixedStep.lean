import Mathlib

/-!
# Fixed steps

Time comes in frames of any length and is used up in steps of one length. A frame takes at most
so many of them; what is too short for a step is carried over to the next frame. Where there is
still enough for a step, what is left is dropped.
-/
namespace Lumos.FixedStep

section Loop

variable {T σ : Type} (enough : T → Bool) (spend : T → T) (step : σ → σ)

/-- Steps as long as there is enough for one, but at most `n`. -/
def drain : Nat → T → σ → T × σ
  | 0, t, s => (t, s)
  | n + 1, t, s => if enough t then drain n (spend t) (step s) else (t, s)

/-- The steps of a frame, and what is carried over. -/
def frame (zero : T) (limit : Nat) (t : T) (s : σ) : T × σ :=
  let (t, s) := drain enough spend step limit t s
  (if enough t then zero else t, s)

/-- Frames with the times they take, each on top of what is carried over. -/
def run [Add T] (zero : T) (limit : Nat) : T → σ → List T → T × σ
  | carry, s, [] => (carry, s)
  | carry, s, t :: times =>
    let left := frame enough spend step zero limit (carry + t) s
    run zero limit left.1 left.2 times

variable {enough spend step} {P : σ → Prop}

/-- What every step keeps is kept. -/
theorem drain_preserves (hstep : ∀ s, P s → P (step s)) (n : Nat) (t : T) {s : σ} (h : P s) :
    P (drain enough spend step n t s).2 := by
  induction n generalizing t s with
  | zero => exact h
  | succ n ih =>
    rw [drain]
    split
    · exact ih _ (hstep s h)
    · exact h

theorem frame_preserves (hstep : ∀ s, P s → P (step s)) (zero : T) (limit : Nat) (t : T) {s : σ} (h : P s) :
    P (frame enough spend step zero limit t s).2 :=
  drain_preserves hstep limit t h

end Loop

variable {K : Type} [Field K] [LinearOrder K] [IsStrictOrderedRing K] [FloorSemiring K] {dt t : K}

/-- How many steps there are in a time. -/
def stepsIn (dt t : K) : Nat := ⌊t / dt⌋₊

theorem stepsIn_sub (hdt : 0 < dt) (t : K) : stepsIn dt (t - dt) = stepsIn dt t - 1 := by
  rw [stepsIn, sub_div, div_self hdt.ne', Nat.floor_sub_one, stepsIn]

theorem stepsIn_of_lt (hdt : 0 < dt) (h : t < dt) : stepsIn dt t = 0 :=
  Nat.floor_eq_zero.mpr ((div_lt_one hdt).mpr h)

theorem stepsIn_pos (hdt : 0 < dt) (h : dt ≤ t) : 0 < stepsIn dt t :=
  Nat.floor_pos.mpr ((one_le_div hdt).mpr h)

theorem stepsIn_mul_le (hdt : 0 < dt) (h : 0 ≤ t) : stepsIn dt t * dt ≤ t :=
  (le_div_iff₀ hdt).mp (Nat.floor_le (div_nonneg h hdt.le))

theorem stepsIn_lt_iff (hdt : 0 < dt) (n : Nat) : stepsIn dt t < n + 1 ↔ t < (n + 1) * dt := by
  rw [stepsIn, Nat.floor_lt' (Nat.succ_ne_zero n), div_lt_iff₀ hdt, Nat.cast_succ]

theorem lt_stepsIn_add_one_mul (hdt : 0 < dt) (t : K) : t < (stepsIn dt t + 1) * dt :=
  (stepsIn_lt_iff hdt _).mp (Nat.lt_succ_self _)

/-- Only one number of steps leaves less than a step. -/
theorem stepsIn_eq (hdt : 0 < dt) {rest : K} {k : Nat} (hrest : 0 ≤ rest) (hlt : rest < dt) :
    stepsIn dt (k * dt + rest) = k := by
  have hdiv : (k * dt + rest) / dt = rest / dt + k := by
    rw [add_div, mul_div_cancel_right₀ _ hdt.ne', add_comm]
  rw [stepsIn, hdiv, Nat.floor_add_natCast (div_nonneg hrest hdt.le), Nat.floor_eq_zero.mpr ((div_lt_one hdt).mpr hlt),
    Nat.zero_add]

/-! ## One frame -/

variable {σ : Type} {enough : K → Bool} {limit : Nat} {step : σ → σ} {s : σ}

section Frame

variable (hdt : 0 < dt) (henough : ∀ t, enough t = true ↔ dt ≤ t)

include hdt henough

theorem drain_eq (n : Nat) (t : K) (s : σ) : drain enough (· - dt) step n t s =
    (t - (min n (stepsIn dt t) : Nat) * dt, step^[min n (stepsIn dt t)] s) := by
  induction n generalizing t s with
  | zero => simp [drain]
  | succ n ih =>
    by_cases hle : dt ≤ t
    · obtain ⟨k, hk⟩ := Nat.exists_eq_succ_of_ne_zero (stepsIn_pos hdt hle).ne'
      rw [drain, if_pos ((henough t).mpr hle), ih, stepsIn_sub hdt, hk, Nat.succ_sub_one, Nat.succ_eq_add_one,
        Nat.add_min_add_right, Function.iterate_succ_apply, Nat.cast_succ]
      congr 1
      ring
    · have hnot : enough t ≠ true := fun h => hle ((henough t).mp h)
      rw [drain, if_neg hnot, stepsIn_of_lt hdt (not_le.mp hle), Nat.min_zero, Nat.cast_zero, zero_mul, sub_zero,
        Function.iterate_zero_apply]

/-- A time with no more than `limit` steps in it is used up to less than a step. -/
theorem frame_of_lt (ht : t < (limit + 1) * dt) :
    frame enough (· - dt) step 0 limit t s = (t - stepsIn dt t * dt, step^[stepsIn dt t] s) := by
  have hsteps : stepsIn dt t ≤ limit := Nat.le_of_lt_succ ((stepsIn_lt_iff hdt limit).mpr ht)
  have hrest : ¬ enough (t - stepsIn dt t * dt) = true := by
    rw [henough, not_le, sub_lt_iff_lt_add, ← one_add_mul, add_comm]
    exact lt_stepsIn_add_one_mul hdt t
  simp only [frame, drain_eq hdt henough, Nat.min_eq_right hsteps, if_neg hrest]

/-- Of any other the rest is dropped. -/
theorem frame_of_le (ht : (limit + 1) * dt ≤ t) :
    frame enough (· - dt) step 0 limit t s = (0, step^[limit] s) := by
  have hsteps : limit ≤ stepsIn dt t := by
    have hnot := mt (stepsIn_lt_iff hdt limit).mp (not_lt.mpr ht)
    omega
  have hrest : enough (t - limit * dt) = true := by
    rw [henough]
    linarith
  simp only [frame, drain_eq hdt henough, Nat.min_eq_left hsteps, if_pos hrest]

/-- The steps of a frame and what it carries over account for its time, but for what it drops. -/
theorem frame_accounts (step : σ → σ) (limit : Nat) (s : σ) (ht : 0 ≤ t) :
    ∃ (k : Nat) (rest : K), frame enough (· - dt) step 0 limit t s = (rest, step^[k] s) ∧ k ≤ limit ∧ 0 ≤ rest ∧
      rest < dt ∧ k * dt + rest ≤ t ∧ (k * dt + rest = t ↔ t < (limit + 1) * dt) := by
  rcases lt_or_ge t ((limit + 1) * dt) with hkept | hdropped
  · have hsteps : stepsIn dt t ≤ limit := Nat.le_of_lt_succ ((stepsIn_lt_iff hdt limit).mpr hkept)
    have hless : t - stepsIn dt t * dt < dt := by
      have hup := lt_stepsIn_add_one_mul hdt t
      linarith
    have hall : stepsIn dt t * dt + (t - stepsIn dt t * dt) = t := add_sub_cancel _ _
    exact ⟨stepsIn dt t, t - stepsIn dt t * dt, frame_of_lt hdt henough hkept, hsteps,
      sub_nonneg.mpr (stepsIn_mul_le hdt ht), hless, hall.le, iff_of_true hall hkept⟩
  · have hspent : limit * dt + 0 < t := by linarith
    exact ⟨limit, 0, frame_of_le hdt henough hdropped, le_rfl, le_rfl, hdt, hspent.le,
      iff_of_false hspent.ne (not_lt.mpr hdropped)⟩

end Frame

/-! ## Frames one after the other -/

/-- No frame finds more time than it can use up. -/
def Keeps (enough : K → Bool) (dt : K) (limit : Nat) : K → List K → Prop
  | _, [] => True
  | carry, t :: times => carry + t < (limit + 1) * dt ∧
      Keeps enough dt limit (frame enough (· - dt) id 0 limit (carry + t) ()).1 times

section Run

variable (hdt : 0 < dt) (henough : ∀ t, enough t = true ↔ dt ≤ t)

include hdt henough

/-- What is carried over does not depend on what the steps do. -/
theorem frame_carry (step : σ → σ) (limit : Nat) (t : K) (s : σ) :
    (frame enough (· - dt) step 0 limit t s).1 = (frame enough (· - dt) id 0 limit t ()).1 := by
  rcases lt_or_ge t ((limit + 1) * dt) with hlt | hle
  · rw [frame_of_lt hdt henough hlt, frame_of_lt hdt henough hlt]
  · rw [frame_of_le hdt henough hle, frame_of_le hdt henough hle]

/-- Steps and what is carried over account for the time, but for what is dropped. -/
theorem run_accounts (step : σ → σ) (limit : Nat) (carry : K) (s : σ) (times : List K) (hcarry : 0 ≤ carry)
    (hlt : carry < dt) (htimes : ∀ t ∈ times, 0 ≤ t) :
    ∃ (k : Nat) (rest : K), run enough (· - dt) step 0 limit carry s times = (rest, step^[k] s) ∧
      k ≤ limit * times.length ∧ 0 ≤ rest ∧ rest < dt ∧ k * dt + rest ≤ carry + times.sum ∧
      (k * dt + rest = carry + times.sum ↔ Keeps enough dt limit carry times) := by
  induction times generalizing carry s with
  | nil => exact ⟨0, carry, rfl, by simp, hcarry, hlt, by simp, by simp [Keeps]⟩
  | cons t times ih =>
    obtain ⟨ht, hrest⟩ := List.forall_mem_cons.mp htimes
    obtain ⟨k, left, hframe, hk, hleft, hleftLt, hless, hall⟩ :=
      frame_accounts hdt henough step limit s (add_nonneg hcarry ht)
    obtain ⟨k', rest, hrun, hk', h0, h1, hle, heq⟩ := ih left (step^[k] s) hleft hleftLt hrest
    rw [run, Keeps, List.sum_cons, List.length_cons, Nat.mul_succ, ← frame_carry hdt henough step limit (carry + t) s,
      hframe, ← hall, ← heq]
    refine ⟨k' + k, rest, ?_, by omega, h0, h1, ?_, ?_⟩
    · rw [Function.iterate_add_apply]
      exact hrun
    · push_cast
      linarith
    · push_cast
      constructor
      · -- neither this frame nor those after it make up time
        intro h
        exact ⟨by linarith, by linarith⟩
      · rintro ⟨hhere, hthere⟩
        linarith

/-- Frames of no more than `limit` steps lose nothing. -/
theorem keeps_of_le (limit : Nat) (carry : K) (times : List K) (hcarry : 0 ≤ carry) (hlt : carry < dt)
    (htimes : ∀ t ∈ times, 0 ≤ t ∧ t ≤ limit * dt) : Keeps enough dt limit carry times := by
  induction times generalizing carry with
  | nil => trivial
  | cons t times ih =>
    obtain ⟨⟨ht, hle⟩, hrest⟩ := List.forall_mem_cons.mp htimes
    have hkept : carry + t < (limit + 1) * dt := by linarith
    refine ⟨hkept, ?_⟩
    rw [frame_of_lt hdt henough hkept]
    have hup := lt_stepsIn_add_one_mul hdt (carry + t)
    exact ih _ (sub_nonneg.mpr (stepsIn_mul_le hdt (add_nonneg hcarry ht))) (by linarith) hrest

/-- However the time is divided into frames, it is the same steps that are taken. -/
theorem run_of_le (step : σ → σ) (limit : Nat) (carry : K) (s : σ) (times : List K) (hcarry : 0 ≤ carry) (hlt : carry < dt)
    (htimes : ∀ t ∈ times, 0 ≤ t ∧ t ≤ limit * dt) : run enough (· - dt) step 0 limit carry s times =
      (carry + times.sum - stepsIn dt (carry + times.sum) * dt, step^[stepsIn dt (carry + times.sum)] s) := by
  obtain ⟨k, rest, hrun, -, h0, h1, -, heq⟩ := run_accounts hdt henough step limit carry s times
    hcarry hlt fun t ht => (htimes t ht).1
  have htotal := heq.mpr (keeps_of_le hdt henough limit carry times hcarry hlt htimes)
  rw [hrun, ← htotal, stepsIn_eq hdt h0 h1, add_sub_cancel_left]

end Run

end Lumos.FixedStep
