import Mathlib.Algebra.Order.Ring.Nat
import Mathlib.Data.Nat.Log

/-!
# Whole numbers in floating point

A number with more binary digits than there is room for is rounded to a neighbour that has no
more of them, and to the even one when it is halfway between two.
-/
namespace Lumos.Library.FloatRounding

/-- The distance between the neighbours of a number, when there are `p` digits. -/
def ulp (p n : Nat) : Nat := 2 ^ (n.log2 + 1 - p)

def round (p n : Nat) : Nat :=
  let q := n / ulp p n
  let r := n % ulp p n
  if 2 * r < ulp p n ∨ (2 * r = ulp p n ∧ q % 2 = 0) then q * ulp p n else (q + 1) * ulp p n

variable {p n m : Nat}

theorem ulp_pos (p n : Nat) : 0 < ulp p n := Nat.two_pow_pos _

theorem ulp_of_lt (hp : 0 < p) (h : n < 2 ^ p) : ulp p n = 1 := by
  have hlog : n.log2 < p := by
    rcases Nat.eq_zero_or_pos n with rfl | hpos
    · rw [Nat.log2_zero]
      exact hp
    · exact (Nat.log2_lt (by omega)).mpr h
  rw [ulp, Nat.sub_eq_zero_of_le hlog, pow_zero]

/-- Rounding down or up. -/
theorem round_cases (p n : Nat) :
    (round p n = n / ulp p n * ulp p n ∧
      (2 * (n % ulp p n) < ulp p n ∨ (2 * (n % ulp p n) = ulp p n ∧ n / ulp p n % 2 = 0))) ∨
    (round p n = (n / ulp p n + 1) * ulp p n ∧
      ulp p n ≤ 2 * (n % ulp p n) ∧ (2 * (n % ulp p n) = ulp p n → n / ulp p n % 2 = 1)) := by
  by_cases h : 2 * (n % ulp p n) < ulp p n ∨ (2 * (n % ulp p n) = ulp p n ∧ n / ulp p n % 2 = 0)
  · exact Or.inl ⟨if_pos h, h⟩
  · refine Or.inr ⟨if_neg h, by omega, fun he => ?_⟩
    by_contra hodd
    exact h (Or.inr ⟨he, by omega⟩)

theorem ulp_dvd_round (p n : Nat) : ulp p n ∣ round p n := by
  rcases round_cases p n with ⟨h, -⟩ | ⟨h, -⟩
  · exact h ▸ Nat.dvd_mul_left _ _
  · exact h ▸ Nat.dvd_mul_left _ _

theorem round_of_dvd (h : ulp p n ∣ n) : round p n = n := by
  have hmod := Nat.mod_eq_zero_of_dvd h
  have hpos := ulp_pos p n
  rcases round_cases p n with ⟨hround, -⟩ | ⟨-, hle, -⟩
  · rw [hround, Nat.div_mul_cancel h]
  · omega

theorem round_of_lt (hp : 0 < p) (h : n < 2 ^ p) : round p n = n :=
  round_of_dvd (ulp_of_lt hp h ▸ Nat.one_dvd n)

/-- No number is moved by more than half the distance between its neighbours. -/
theorem le_round (p n : Nat) : 2 * n ≤ 2 * round p n + ulp p n := by
  have hdiv := Nat.div_add_mod' n (ulp p n)
  have hmod := Nat.mod_lt n (ulp_pos p n)
  rcases round_cases p n with ⟨hround, hr⟩ | ⟨hround, hr, -⟩
  · rw [hround]
    omega
  · rw [hround, Nat.add_one_mul (n / ulp p n)]
    omega

theorem two_mul_ulp_le (hp : 2 ≤ p) (hn : 2 ≤ n) : 2 * ulp p n ≤ n := by
  have hlog : 1 ≤ n.log2 := (Nat.le_log2 (by omega)).mpr hn
  calc 2 * ulp p n
      ≤ 2 * 2 ^ (n.log2 - 1) := Nat.mul_le_mul_left 2 (Nat.pow_le_pow_right (by decide) (by omega))
    _ = 2 ^ n.log2 := by rw [← Nat.pow_succ', Nat.succ_eq_add_one, Nat.sub_add_cancel hlog]
    _ ≤ n := Nat.log2_self_le (by omega)

/-- What is twice as large stays larger. -/
theorem lt_round_two_mul (hp : 2 ≤ p) (hn : 0 < n) : n < round p (2 * n) := by
  have hle := le_round p (2 * n)
  have hulp := two_mul_ulp_le hp (by omega : 2 ≤ 2 * n)
  omega

theorem round_le (p n : Nat) : 2 * round p n ≤ 2 * n + ulp p n := by
  have hdiv := Nat.div_add_mod' n (ulp p n)
  have hmod := Nat.mod_lt n (ulp_pos p n)
  rcases round_cases p n with ⟨hround, hr⟩ | ⟨hround, hr, -⟩
  · rw [hround]
    omega
  · rw [hround, Nat.add_one_mul (n / ulp p n)]
    omega

/-- The numbers that are rounded past their neighbours are few. -/
theorem lt_of_round_le {e k : Nat} (hp : 2 ≤ p) (hn : 0 < n) (hfar : round p (n + e) ≤ n) (hnear : n ≤ round p k) :
    e < k := by
  have hfar' := le_round p (n + e)
  have hnear' := round_le p k
  have hone : ∀ m, m < 2 → ulp p m = 1 := by
    intro m hm
    have hpow : 2 ^ 1 < 2 ^ p := Nat.pow_lt_pow_right (by decide) (by omega)
    exact ulp_of_lt (by omega) (by omega)
  have hulp : ∀ m, 2 ≤ m → 2 * ulp p m ≤ m := fun m hm => two_mul_ulp_le hp hm
  rcases Nat.lt_or_ge k 2 with hk | hk
  · have hulp' := hone k hk
    rcases Nat.lt_or_ge (n + e) 2 with hsum | hsum
    · omega
    · have hulp'' := hulp (n + e) hsum
      omega
  · have hulp' := hulp k hk
    rcases Nat.lt_or_ge (n + e) 2 with hsum | hsum
    · omega
    · have hulp'' := hulp (n + e) hsum
      omega

/-! ## Between powers of two -/

theorem ulp_dvd_two_pow {k : Nat} (hp : 0 < p) (hk : n.log2 ≤ k) : ulp p n ∣ 2 ^ k :=
  Nat.pow_dvd_pow 2 (by omega)

theorem two_pow_le_round (hp : 0 < p) (hn : 0 < n) : 2 ^ n.log2 ≤ round p n := by
  obtain ⟨q, hq⟩ := ulp_dvd_two_pow hp (Nat.le_refl n.log2)
  have hle : q ≤ n / ulp p n := by
    rw [Nat.le_div_iff_mul_le (ulp_pos p n), Nat.mul_comm, ← hq]
    exact Nat.log2_self_le (by omega)
  have hdown : 2 ^ n.log2 ≤ n / ulp p n * ulp p n := by
    rw [hq, Nat.mul_comm]
    exact Nat.mul_le_mul_right _ hle
  rcases round_cases p n with ⟨h, -⟩ | ⟨h, -⟩
  · exact h ▸ hdown
  · rw [h, Nat.add_one_mul]
    omega

theorem round_le_two_pow (hp : 0 < p) : round p n ≤ 2 ^ (n.log2 + 1) := by
  obtain ⟨q, hq⟩ := ulp_dvd_two_pow hp (Nat.le_succ n.log2)
  have hlt : n / ulp p n < q := by
    rw [Nat.div_lt_iff_lt_mul (ulp_pos p n), Nat.mul_comm, ← hq]
    exact Nat.lt_log2_self
  have hup : (n / ulp p n + 1) * ulp p n ≤ 2 ^ (n.log2 + 1) := by
    rw [hq, Nat.mul_comm (ulp p n)]
    exact Nat.mul_le_mul_right _ hlt
  rcases round_cases p n with ⟨h, -⟩ | ⟨h, -⟩
  · rw [Nat.add_one_mul] at hup
    omega
  · exact h ▸ hup

theorem round_mono (hp : 0 < p) (h : m ≤ n) : round p m ≤ round p n := by
  rcases Nat.eq_zero_or_pos m with rfl | hm
  · rw [round_of_lt hp (Nat.two_pow_pos p)]
    exact Nat.zero_le _
  have hlog : m.log2 ≤ n.log2 := by
    rw [Nat.le_log2 (by omega)]
    exact Nat.le_trans (Nat.log2_self_le (by omega)) h
  rcases Nat.lt_or_eq_of_le hlog with hlt | heq
  · calc round p m
        ≤ 2 ^ (m.log2 + 1) := round_le_two_pow hp
      _ ≤ 2 ^ n.log2 := Nat.pow_le_pow_right (by decide) hlt
      _ ≤ round p n := two_pow_le_round hp (by omega)
  · have hulp : ulp p m = ulp p n := by rw [ulp, ulp, heq]
    have hdiv : m / ulp p n ≤ n / ulp p n := Nat.div_le_div_right h
    have hm' := Nat.div_add_mod' m (ulp p n)
    have hn' := Nat.div_add_mod' n (ulp p n)
    have hnext : m / ulp p n < n / ulp p n → (m / ulp p n + 1) * ulp p n ≤ n / ulp p n * ulp p n :=
      fun hlt => Nat.mul_le_mul_right _ hlt
    have hcases := round_cases p m
    rw [hulp] at hcases
    rcases hcases with ⟨hround, hr⟩ | ⟨hround, hr, hodd⟩ <;>
      rcases round_cases p n with ⟨hround', hr'⟩ | ⟨hround', hr', hodd'⟩ <;> rw [hround, hround']
    · exact Nat.mul_le_mul_right _ hdiv
    · exact Nat.mul_le_mul_right _ (Nat.le_succ_of_le hdiv)
    · rcases Nat.lt_or_eq_of_le hdiv with hlt | heq'
      · exact hnext hlt
      · rw [heq'] at hm' hodd
        omega
    · exact Nat.mul_le_mul_right _ (Nat.succ_le_succ hdiv)

/-- A number that has been rounded stays as it is. -/
theorem round_round (hp : 0 < p) (n : Nat) : round p (round p n) = round p n := by
  rcases Nat.eq_zero_or_pos n with rfl | hn
  · rw [round_of_lt hp (Nat.two_pow_pos p), round_of_lt hp (Nat.two_pow_pos p)]
  apply round_of_dvd
  rcases Nat.lt_or_eq_of_le (round_le_two_pow hp : round p n ≤ 2 ^ (n.log2 + 1)) with hlt | heq
  · have hpos : round p n ≠ 0 := by
      have hle := two_pow_le_round hp hn
      have hpow := Nat.two_pow_pos n.log2
      omega
    have hlog : (round p n).log2 = n.log2 := by
      apply Nat.le_antisymm
      · exact Nat.le_of_lt_succ ((Nat.log2_lt hpos).mpr hlt)
      · exact (Nat.le_log2 hpos).mpr (two_pow_le_round hp hn)
    have hulp : ulp p (round p n) = ulp p n := by rw [ulp, ulp, hlog]
    exact hulp ▸ ulp_dvd_round p n
  · rw [heq]
    exact ulp_dvd_two_pow hp (by rw [Nat.log2_two_pow])

/-! ## Neighbours -/

theorem ulp_dvd_self (h : round p n = n) : ulp p n ∣ n := by
  have hdvd := ulp_dvd_round p n
  rwa [h] at hdvd

theorem ulp_eq_two (hle : 2 ^ p ≤ n) (hlt : n < 2 ^ (p + 1)) : ulp p n = 2 := by
  have hne : n ≠ 0 := by
    have hpow := Nat.two_pow_pos p
    omega
  have hlog : n.log2 = p := (Nat.log2_eq_iff hne).mpr ⟨hle, hlt⟩
  rw [ulp, hlog, Nat.add_sub_cancel_left, pow_one]

theorem four_dvd_ulp (hle : 2 ^ (p + 1) ≤ n) : 4 ∣ ulp p n := by
  have hne : n ≠ 0 := by
    have hpow := Nat.two_pow_pos (p + 1)
    omega
  have hlog : p + 1 ≤ n.log2 := (Nat.le_log2 hne).mpr hle
  exact Nat.pow_dvd_pow 2 (by omega : 2 ≤ n.log2 + 1 - p)

/-- Next to a number with two digits too many there is none that is kept apart from it. -/
theorem round_add_one (hp : 0 < p) (hle : 2 ^ (p + 1) ≤ n) (h : round p n = n) : round p (n + 1) = n := by
  have hdvd := ulp_dvd_self h
  have hfour := four_dvd_ulp hle
  have hpos := ulp_pos p n
  have hne : n ≠ 0 := by
    have hpow := Nat.two_pow_pos (p + 1)
    omega
  have hlog : (n + 1).log2 = n.log2 := by
    have hself := Nat.log2_self_le hne
    have hlt : n < 2 ^ (n.log2 + 1) := Nat.lt_log2_self
    have hpow : 4 ∣ 2 ^ (n.log2 + 1) := by
      have hlog' : p + 1 ≤ n.log2 := (Nat.le_log2 hne).mpr hle
      exact Nat.pow_dvd_pow 2 (by omega : 2 ≤ n.log2 + 1)
    have hn : 4 ∣ n := hfour.trans hdvd
    exact (Nat.log2_eq_iff (by omega)).mpr ⟨by omega, by omega⟩
  have hulp : ulp p (n + 1) = ulp p n := by rw [ulp, ulp, hlog]
  obtain ⟨q, hq⟩ := hdvd
  have hfour' : 4 ≤ ulp p n := Nat.le_of_dvd hpos hfour
  obtain ⟨hdiv, hmod⟩ : (n + 1) / ulp p n = q ∧ (n + 1) % ulp p n = 1 :=
    (Nat.div_mod_unique hpos).mpr ⟨by omega, by omega⟩
  have hcases := round_cases p (n + 1)
  rw [hulp, hmod, hdiv, Nat.mul_comm q] at hcases
  rcases hcases with ⟨hround, -⟩ | ⟨-, hr, -⟩
  · rw [hround, ← hq]
  · omega

theorem round_sub_one (hp : 0 < p) (hlt : 2 ^ (p + 1) < n) (h : round p n = n) : round p (n - 1) = n := by
  have hfour := four_dvd_ulp (by omega : 2 ^ (p + 1) ≤ n - 1)
  have hpos := ulp_pos p (n - 1)
  have hpow := Nat.two_pow_pos (p + 1)
  have hdvd : ulp p (n - 1) ∣ n := by
    have hself := Nat.log2_self_le (by omega : n - 1 ≠ 0)
    have hnext : n - 1 < 2 ^ ((n - 1).log2 + 1) := Nat.lt_log2_self
    rcases Nat.lt_or_eq_of_le (by omega : n ≤ 2 ^ ((n - 1).log2 + 1)) with hlt' | heq
    · have hlog : n.log2 = (n - 1).log2 := (Nat.log2_eq_iff (by omega)).mpr ⟨by omega, hlt'⟩
      have hulp : ulp p (n - 1) = ulp p n := by rw [ulp, ulp, hlog]
      exact hulp ▸ ulp_dvd_self h
    · have hdvd' : ulp p (n - 1) ∣ 2 ^ ((n - 1).log2 + 1) := ulp_dvd_two_pow hp (Nat.le_succ _)
      rwa [← heq] at hdvd'
  obtain ⟨q, hq⟩ := hdvd
  have hfour' : 4 ≤ ulp p (n - 1) := Nat.le_of_dvd hpos hfour
  have hq' : ulp p (n - 1) * (q - 1) + ulp p (n - 1) = n := by
    have hone : 1 ≤ q := by
      by_contra hzero
      rw [Nat.lt_one_iff.mp (Nat.lt_of_not_le hzero), Nat.mul_zero] at hq
      omega
    rw [← Nat.mul_add_one, Nat.sub_add_cancel hone, ← hq]
  obtain ⟨hdiv, hmod⟩ : (n - 1) / ulp p (n - 1) = q - 1 ∧ (n - 1) % ulp p (n - 1) = ulp p (n - 1) - 1 :=
    (Nat.div_mod_unique hpos).mpr ⟨by omega, by omega⟩
  rcases round_cases p (n - 1) with ⟨-, hr⟩ | ⟨hround, -, -⟩
  · omega
  · rw [hround, hdiv, Nat.add_one_mul, Nat.mul_comm, hq']

/-- Among numbers with one digit too many the even ones are kept. -/
theorem round_even (hle : 2 ^ p ≤ n) (hlt : n < 2 ^ (p + 1)) (heven : n % 2 = 0) : round p n = n := by
  apply round_of_dvd
  rw [ulp_eq_two hle hlt]
  exact Nat.dvd_of_mod_eq_zero heven

/-- An odd one goes to the neighbour that is a multiple of four. -/
theorem round_odd (hle : 2 ^ p ≤ n) (hlt : n < 2 ^ (p + 1)) (hodd : n % 2 = 1) :
    round p n = if n % 4 = 1 then n - 1 else n + 1 := by
  have hcases := round_cases p n
  rw [ulp_eq_two hle hlt] at hcases
  split <;> omega

theorem lt_round_add_one_iff (hp : 2 ≤ p) (x : Nat) :
    round p x < round p (round p x + 1) ↔ x < 2 ^ p ∨ (2 ^ p < x ∧ x < 2 ^ (p + 1) ∧ x % 4 = 2) := by
  have hp' : 0 < p := by omega
  have hfour : 4 ∣ 2 ^ p := Nat.pow_dvd_pow 2 hp
  have hpow : 2 ^ (p + 1) = 2 * 2 ^ p := by rw [Nat.pow_succ, Nat.mul_comm]
  rcases Nat.lt_or_ge x (2 ^ p) with hsmall | hlarge
  · have hx : round p x = x := round_of_lt hp' hsmall
    have hnext : round p (x + 1) = x + 1 := by
      rcases Nat.lt_or_ge (x + 1) (2 ^ p) with hlt | hge
      · exact round_of_lt hp' hlt
      · exact round_even hge (by omega) (by omega)
    rw [hx, hnext]
    exact iff_of_true (Nat.lt_succ_self x) (Or.inl hsmall)
  · rcases Nat.lt_or_ge x (2 ^ (p + 1)) with hmiddle | hhuge
    · have hround : round p x = if x % 2 = 0 then x else if x % 4 = 1 then x - 1 else x + 1 := by
        split
        · next heven => exact round_even hlarge hmiddle heven
        · next hodd => exact round_odd hlarge hmiddle (by omega)
      have heven : round p x % 2 = 0 := by
        rw [hround]
        split
        · assumption
        · split <;> omega
      have hle : 2 ^ p ≤ round p x := by
        rw [hround]
        split
        · assumption
        · split <;> omega
      have hmod : round p x % 4 = 2 ↔ x % 4 = 2 := by
        rw [hround]
        split
        · rfl
        · split <;> omega
      rcases Nat.lt_or_ge (round p x) (2 ^ (p + 1)) with hlt | hge
      · have hnext := round_odd (p := p) (n := round p x + 1) (by omega) (by omega) (by omega)
        rw [hnext]
        split <;> omega
      · rw [round_add_one hp' hge (round_round hp' x)]
        split at hround <;> omega
    · have hle : 2 ^ (p + 1) ≤ round p x := by
        have hmono := round_mono hp' hhuge
        have hfix : round p (2 ^ (p + 1)) = 2 ^ (p + 1) :=
          round_of_dvd (ulp_dvd_two_pow hp' (by rw [Nat.log2_two_pow]))
        omega
      rw [round_add_one hp' hle (round_round hp' x)]
      omega

/-- Where the next number is not rounded down to a number, the one before it is not rounded up. -/
theorem round_sub_one_lt (hp : 2 ≤ p) (hn : 0 < n) (hfix : round p n = n) (h : n < round p (n + 1)) :
    round p (n - 1) < n := by
  have hp' : 0 < p := by omega
  have hpow : 2 ^ (p + 1) = 2 * 2 ^ p := by rw [Nat.pow_succ, Nat.mul_comm]
  have hiff := lt_round_add_one_iff hp n
  rw [hfix] at hiff
  rcases hiff.mp h with hsmall | ⟨hlarge, hlt, hmod⟩
  · rw [round_of_lt hp' (by omega)]
    omega
  · rw [round_odd (by omega) (by omega) (by omega), if_pos (by omega)]
    omega

/-- The last two of so many numbers stay different from each other and from the next one exactly
when there are not too many of them. -/
theorem round_sub_lt_iff (hp : 2 ≤ p) {y : Nat} (hy : 2 ≤ y) :
    (round p (round p y - 2) < round p (round p y - 1) ∧ round p (round p y - 1) < round p y) ↔ y ≤ 2 ^ p + 1 := by
  have hp' : 0 < p := by omega
  have hfour : 4 ∣ 2 ^ p := Nat.pow_dvd_pow 2 hp
  have hpow : 2 ^ (p + 1) = 2 * 2 ^ p := by rw [Nat.pow_succ, Nat.mul_comm]
  have hpos := Nat.two_pow_pos p
  have hround : y ≤ 2 ^ p + 1 ↔ round p y ≤ 2 ^ p := by
    constructor
    · intro hle
      rcases Nat.lt_or_ge y (2 ^ p) with hlt | hge
      · rw [round_of_lt hp' hlt]
        omega
      · rcases Nat.lt_or_eq_of_le hle with hlt | rfl
        · rw [round_even hge (by omega) (by omega)]
          omega
        · rw [round_odd hge (by omega) (by omega)]
          split <;> omega
    · intro hle
      by_contra hlt
      have hmono : round p (2 ^ p + 2) ≤ round p y := round_mono hp' (by omega)
      rw [round_even (by omega) (by omega) (by omega)] at hmono
      omega
  have htwo : 2 ≤ round p y := by
    have hmono : round p 2 ≤ round p y := round_mono hp' hy
    rwa [round_of_lt hp' (by omega)] at hmono
  rw [hround]
  rcases Nat.lt_or_ge (2 ^ p) (round p y) with hlarge | hsmall
  · have hfix := round_round hp' y
    have hlast : round p (round p y - 1) = round p y ∨ round p (round p y - 2) = round p (round p y - 1) := by
      rcases Nat.lt_or_ge (2 ^ (p + 1)) (round p y) with hhuge | hmiddle
      · exact Or.inl (round_sub_one hp' hhuge hfix)
      · have heven : round p y % 2 = 0 := by
          rcases Nat.lt_or_eq_of_le hmiddle with hlt | heq
          · have hdvd := ulp_dvd_self hfix
            rw [ulp_eq_two (by omega) hlt] at hdvd
            omega
          · omega
        have hodd := round_odd (p := p) (n := round p y - 1) (by omega) (by omega) (by omega)
        rw [round_even (by omega : 2 ^ p ≤ round p y - 2) (by omega) (by omega), hodd]
        split <;> omega
    omega
  · rw [round_of_lt hp' (by omega : round p y - 2 < 2 ^ p), round_of_lt hp' (by omega : round p y - 1 < 2 ^ p)]
    omega

end Lumos.Library.FloatRounding
