import Mathlib.Data.Nat.ModEq

/-!
# Going up and down a row

The place of one who starts at the first of `n` places, takes a step each time and turns
round at either end.
-/
namespace Lumos.Library.TriangleWave

/-- The number of steps after which everything begins anew. -/
def period (n : Nat) : Nat := 2 * (n - 1)

/-- How far into its round one is after some steps. -/
def phase (n steps : Nat) : Nat := steps % period n

def wave (n steps : Nat) : Nat := min (phase n steps) (period n - phase n steps)

section Waves

variable {n steps : Nat}

@[simp] theorem phase_zero (n : Nat) : phase n 0 = 0 := Nat.zero_mod _

@[simp] theorem wave_zero (n : Nat) : wave n 0 = 0 := by simp [wave]

theorem phase_lt (hn : 2 ≤ n) : phase n steps < period n :=
  Nat.mod_lt steps (by simp only [period]; omega)

theorem phase_succ (hn : 2 ≤ n) :
    phase n (steps + 1) = if phase n steps + 1 = period n then 0 else phase n steps + 1 := by
  have hlt : phase n steps < period n := phase_lt hn
  have hsucc : phase n (steps + 1) = (phase n steps + 1) % period n := (Nat.mod_add_mod steps (period n) 1).symm
  rw [hsucc]
  split
  case isTrue h => rw [h, Nat.mod_self]
  case isFalse h => exact Nat.mod_eq_of_lt (by omega)

/-- Up, as long as the end is not reached. -/
theorem wave_succ_of_lt (hn : 2 ≤ n) (hup : phase n steps < n - 1) : wave n (steps + 1) = wave n steps + 1 := by
  have hmiddle : phase n steps + 1 ≠ period n := by simp only [period]; omega
  rw [wave, wave, phase_succ hn, if_neg hmiddle]
  simp only [period]
  omega

/-- Down, from the end back to the first place. -/
theorem wave_succ_of_le (hn : 2 ≤ n) (hdown : n - 1 ≤ phase n steps) : wave n (steps + 1) + 1 = wave n steps := by
  have hlt : phase n steps < period n := phase_lt hn
  rw [wave, wave, phase_succ hn]
  split <;> simp only [period] at * <;> omega

/-- Each step moves by one. -/
theorem wave_succ (hn : 2 ≤ n) : wave n (steps + 1) = wave n steps + 1 ∨ wave n (steps + 1) + 1 = wave n steps := by
  obtain hup | hdown := Nat.lt_or_ge (phase n steps) (n - 1)
  · exact .inl (wave_succ_of_lt hn hup)
  · exact .inr (wave_succ_of_le hn hdown)

end Waves

end Lumos.Library.TriangleWave
