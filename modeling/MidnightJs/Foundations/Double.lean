import Mathlib.Data.Int.Log
import Mathlib.Data.Rat.Floor
import Mathlib.Tactic.Linarith
import Mathlib.Tactic.NormNum.Pow
import Mathlib.Tactic.Positivity
import Mathlib.Algebra.Order.Field.Power

/-! # Doubles

The finite double-precision numbers as a set of rationals, and the one nearest to a rational. -/

namespace Foundations.Js
set_option autoImplicit false

/-! ## The nearest integer -/

/-- Of two integers as near, the even one. -/
def roundHalfEven (q : ℚ) : ℤ :=
  if q - ⌊q⌋ < 1 / 2 then ⌊q⌋ else if 1 / 2 < q - ⌊q⌋ then ⌊q⌋ + 1 else ⌊q⌋ + ⌊q⌋ % 2

@[simp] theorem roundHalfEven_intCast (n : ℤ) : roundHalfEven (n : ℚ) = n := by
  simp [roundHalfEven]

theorem roundHalfEven_cases (q : ℚ) : roundHalfEven q = ⌊q⌋ ∨ roundHalfEven q = ⌊q⌋ + 1 := by
  unfold roundHalfEven
  split_ifs
  · exact .inl rfl
  · exact .inr rfl
  · omega

theorem le_roundHalfEven {n : ℤ} {q : ℚ} (h : (n : ℚ) ≤ q) : n ≤ roundHalfEven q := by
  have hfloor : n ≤ ⌊q⌋ := Int.le_floor.mpr h
  have hcases := roundHalfEven_cases q
  omega

theorem roundHalfEven_le {n : ℤ} {q : ℚ} (h : q < n) : roundHalfEven q ≤ n := by
  have hfloor : ⌊q⌋ < n := Int.floor_lt.mpr h
  have hcases := roundHalfEven_cases q
  omega

/-! ## The nearest double -/

/-- The place of the last binary digit of the doubles around `q`. -/
def lastPlace (q : ℚ) : ℤ := max (Int.log 2 |q|) (-1022) - 52

/-- The nearest double, if exponents had no upper bound. -/
def nearestDouble (q : ℚ) : ℚ := roundHalfEven (q / 2 ^ lastPlace q) * 2 ^ lastPlace q

theorem neg_1074_le_lastPlace (q : ℚ) : -1074 ≤ lastPlace q := by
  unfold lastPlace
  omega

theorem two_zpow_pos (e : ℤ) : (0 : ℚ) < 2 ^ e := by
  positivity

/-- A multiple of the last place is not rounded. -/
theorem nearestDouble_of_multiple {q : ℚ} (n : ℤ) (h : q = n * 2 ^ lastPlace q) :
    nearestDouble q = q := by
  have hdiv : q / 2 ^ lastPlace q = n := by
    rw [div_eq_iff (two_zpow_pos _).ne']
    exact h
  unfold nearestDouble
  rw [hdiv, roundHalfEven_intCast]
  exact h.symm

@[simp] theorem nearestDouble_zero : nearestDouble 0 = 0 :=
  nearestDouble_of_multiple 0 (by simp)

theorem abs_lt_two_zpow (q : ℚ) : |q| < 2 ^ (lastPlace q + 53) := by
  have hlog : |q| < ((2 : ℕ) : ℚ) ^ (Int.log 2 |q| + 1) := Int.lt_zpow_succ_log_self (by norm_num) _
  refine lt_of_lt_of_le (by simpa using hlog) (zpow_le_zpow_right₀ (by norm_num) ?_)
  unfold lastPlace
  omega

theorem lastPlace_le {q : ℚ} (hq : q ≠ 0) {e : ℤ} (he : -1074 ≤ e) (h : |q| < 2 ^ (e + 53)) :
    lastPlace q ≤ e := by
  have hlog : Int.log 2 |q| < e + 53 := by
    have hlt : |q| < ((2 : ℕ) : ℚ) ^ (e + 53) := by simpa using h
    exact (Int.lt_zpow_iff_log_lt (by norm_num) (abs_pos.mpr hq)).mp hlt
  unfold lastPlace
  omega

/-- A number of 53 binary digits is a double. -/
theorem nearestDouble_of_lt {m e : ℤ} (hm : |m| < 2 ^ 53) (he : -1074 ≤ e) :
    nearestDouble (m * 2 ^ e) = m * 2 ^ e := by
  by_cases hzero : m = 0
  · subst hzero
    simp
  have hne : (m * 2 ^ e : ℚ) ≠ 0 := mul_ne_zero (by exact_mod_cast hzero) (two_zpow_pos e).ne'
  have habs : |(m * 2 ^ e : ℚ)| < 2 ^ (e + 53) := by
    rw [abs_mul, abs_of_pos (two_zpow_pos e), zpow_add₀ (by norm_num), mul_comm]
    refine mul_lt_mul_of_pos_left ?_ (two_zpow_pos e)
    exact_mod_cast hm
  have hle := lastPlace_le hne he habs
  refine nearestDouble_of_multiple (m * 2 ^ (e - lastPlace (m * 2 ^ e)).toNat) ?_
  push_cast
  rw [mul_assoc, ← zpow_natCast, ← zpow_add₀ (by norm_num : (2 : ℚ) ≠ 0)]
  congr 2
  omega

theorem nearestDouble_intCast {m : ℤ} (hm : |m| < 2 ^ 53) : nearestDouble (m : ℚ) = m := by
  have h := nearestDouble_of_lt hm (show (-1074 : ℤ) ≤ 0 by norm_num)
  simpa using h

theorem nearestDouble_nearestDouble (q : ℚ) : nearestDouble (nearestDouble q) = nearestDouble q := by
  obtain ⟨m, hm⟩ : ∃ m, roundHalfEven (q / 2 ^ lastPlace q) = m := ⟨_, rfl⟩
  have hscaled : |q / 2 ^ lastPlace q| < 2 ^ 53 := by
    rw [abs_div, abs_of_pos (two_zpow_pos _), div_lt_iff₀ (two_zpow_pos _)]
    have h := abs_lt_two_zpow q
    rw [add_comm, zpow_add₀ (by norm_num)] at h
    exact_mod_cast h
  obtain ⟨hlower, hupper⟩ := abs_lt.mp hscaled
  have hle : m ≤ 2 ^ 53 := by
    rw [← hm]
    exact roundHalfEven_le (by exact_mod_cast hupper)
  have hge : -2 ^ 53 ≤ m := by
    rw [← hm]
    refine le_roundHalfEven ?_
    push_cast
    exact hlower.le
  have hplace := neg_1074_le_lastPlace q
  change nearestDouble (roundHalfEven _ * _) = roundHalfEven _ * _
  rw [hm]
  by_cases hlt : |m| < 2 ^ 53
  · exact nearestDouble_of_lt hlt hplace
  -- The significand was rounded up to the next power of two.
  · obtain ⟨sign, hsign, rfl⟩ : ∃ sign : ℤ, |sign| < 2 ^ 53 ∧ m = sign * 2 ^ 53 := by
      obtain h | h : m = 2 ^ 53 ∨ m = -2 ^ 53 := by
        rcases abs_cases m with ⟨habs, _⟩ | ⟨habs, _⟩ <;> omega
      · exact ⟨1, by norm_num, by rw [h]; norm_num⟩
      · exact ⟨-1, by norm_num, by rw [h]; norm_num⟩
    have hshift : ((sign * 2 ^ 53 : ℤ) : ℚ) * 2 ^ lastPlace q = sign * 2 ^ (53 + lastPlace q) := by
      rw [zpow_add₀ (by norm_num)]
      norm_num [mul_assoc]
    rw [hshift]
    exact nearestDouble_of_lt hsign (by omega)

/-- A large integer is not rounded to a small one. -/
theorem le_nearestDouble {n : ℤ} (h : 2 ^ 53 ≤ n) : (2 : ℚ) ^ 53 ≤ nearestDouble n := by
  have hpos : (0 : ℚ) < n := by exact_mod_cast lt_of_lt_of_le (by norm_num) h
  have hlog : (53 : ℤ) ≤ Int.log 2 |(n : ℚ)| := by
    rw [← Int.zpow_le_iff_le_log (by norm_num) (abs_pos.mpr hpos.ne'), abs_of_pos hpos]
    exact_mod_cast h
  have hplace : lastPlace n = Int.log 2 |(n : ℚ)| - 52 := by
    unfold lastPlace
    omega
  have hscaled : ((2 ^ 52 : ℤ) : ℚ) ≤ n / 2 ^ lastPlace n := by
    have hself := Int.zpow_log_le_self (b := 2) (by norm_num) (abs_pos.mpr hpos.ne')
    have hpower : ((2 ^ 52 : ℤ) : ℚ) = 2 ^ (52 : ℤ) := by norm_num
    rw [le_div_iff₀ (two_zpow_pos _), hplace, hpower, ← zpow_add₀ (by norm_num),
      add_sub_cancel]
    rw [abs_of_pos hpos] at hself ⊢
    exact_mod_cast hself
  have hround : ((2 ^ 52 : ℤ) : ℚ) ≤ roundHalfEven (n / 2 ^ lastPlace n) := by
    exact_mod_cast le_roundHalfEven hscaled
  unfold nearestDouble
  calc (2 : ℚ) ^ 53 = ((2 ^ 52 : ℤ) : ℚ) * 2 ^ (1 : ℤ) := by norm_num
    _ ≤ roundHalfEven (n / 2 ^ lastPlace n) * 2 ^ lastPlace n := by
      refine mul_le_mul hround (zpow_le_zpow_right₀ (by norm_num) (by omega)) (by positivity) ?_
      exact le_trans (by positivity) hround

/-- An integer that is rounded to a small natural number is that number. -/
theorem eq_of_nearestDouble_eq {n m : ℕ} (h : nearestDouble n = m) (hm : m < 2 ^ 53) : n = m := by
  by_cases hn : (n : ℤ) < 2 ^ 53
  · have hexact := nearestDouble_intCast (m := n) (by rw [abs_of_nonneg (by omega)]; exact hn)
    rw [Int.cast_natCast, h] at hexact
    exact_mod_cast hexact.symm
  · have hlarge := le_nearestDouble (not_lt.mp hn)
    rw [Int.cast_natCast, h] at hlarge
    have hcast : (2 : ℚ) ^ 53 ≤ ((m : ℕ) : ℚ) := hlarge
    have hnat : 2 ^ 53 ≤ m := by exact_mod_cast hcast
    omega

/-- The magnitude of a finite double. -/
def IsDouble (q : ℚ) : Prop := 0 ≤ q ∧ nearestDouble q = q ∧ q < 2 ^ 1024

instance (q : ℚ) : Decidable (IsDouble q) := inferInstanceAs (Decidable (_ ∧ _ ∧ _))

theorem nearestDouble_nonneg {q : ℚ} (h : 0 ≤ q) : 0 ≤ nearestDouble q := by
  have hscaled : ((0 : ℤ) : ℚ) ≤ q / 2 ^ lastPlace q := by
    rw [Int.cast_zero]
    positivity
  have hround := le_roundHalfEven hscaled
  unfold nearestDouble
  have hcast : (0 : ℚ) ≤ roundHalfEven (q / 2 ^ lastPlace q) := by exact_mod_cast hround
  positivity

theorem isDouble_nearestDouble {q : ℚ} (h : 0 ≤ q) (hlt : nearestDouble q < 2 ^ 1024) :
    IsDouble (nearestDouble q) :=
  ⟨nearestDouble_nonneg h, nearestDouble_nearestDouble q, hlt⟩

theorem isDouble_natCast {n : ℕ} (h : n < 2 ^ 53) : IsDouble n := by
  have hexact := nearestDouble_intCast (m := n) (by rw [abs_of_nonneg (by omega)]; exact_mod_cast h)
  refine ⟨by positivity, by simpa using hexact, ?_⟩
  calc (n : ℚ) < 2 ^ 53 := by exact_mod_cast h
    _ ≤ 2 ^ 1024 := pow_le_pow_right₀ (by norm_num) (by norm_num)

/-- A double has finitely many decimals. -/
theorem IsDouble.decimal {q : ℚ} (h : IsDouble q) : ∃ n : ℕ, q = n * 10 ^ (-1074 : ℤ) := by
  obtain ⟨hnonneg, hexact, -⟩ := h
  obtain ⟨m, hm⟩ : ∃ m : ℤ, q = m * 2 ^ lastPlace q := ⟨_, hexact.symm⟩
  have hplace := neg_1074_le_lastPlace q
  have hm' : 0 ≤ m := by
    have hcast : (0 : ℚ) ≤ m := by
      by_contra hneg
      have := mul_neg_of_neg_of_pos (not_le.mp hneg) (two_zpow_pos (lastPlace q))
      linarith
    exact_mod_cast hcast
  obtain ⟨k, rfl⟩ := Int.eq_ofNat_of_zero_le hm'
  refine ⟨k * 2 ^ (lastPlace q + 1074).toNat * 5 ^ 1074, ?_⟩
  have hten : (10 : ℚ) ^ (-1074 : ℤ) = 2 ^ (-1074 : ℤ) * (5 : ℚ) ^ (-1074 : ℤ) := by
    rw [← mul_zpow]
    norm_num
  have htwo : (2 : ℚ) ^ lastPlace q = 2 ^ (lastPlace q + 1074).toNat * 2 ^ (-1074 : ℤ) := by
    rw [← zpow_natCast, ← zpow_add₀ (by norm_num)]
    congr 1
    omega
  have hfive : (5 : ℚ) ^ 1074 * 5 ^ (-1074 : ℤ) = 1 := by
    rw [← zpow_natCast, ← zpow_add₀ (by norm_num)]
    norm_num
  simp only [Nat.cast_mul, Nat.cast_pow, Nat.cast_ofNat]
  calc q = k * 2 ^ lastPlace q := hm
    _ = k * 2 ^ (lastPlace q + 1074).toNat * 2 ^ (-1074 : ℤ) * ((5 : ℚ) ^ 1074 * 5 ^ (-1074 : ℤ)) := by
      rw [hfive, htwo]
      ring
    _ = k * 2 ^ (lastPlace q + 1074).toNat * 5 ^ 1074 * 10 ^ (-1074 : ℤ) := by
      rw [hten]
      generalize (5 : ℚ) ^ 1074 = five
      ring

end Foundations.Js
