import IdlGen.Number.Binary64
import Mathlib.Algebra.Order.Field.Power
import Mathlib.Data.Nat.Log
import Mathlib.Data.Rat.Cast.Order
import Mathlib.Tactic.FieldSimp
import Mathlib.Tactic.Linarith
import Mathlib.Tactic.Positivity
import Mathlib.Tactic.Ring

/-!
Rounding to double precision. Every decimal whose value lies in the interval of a number
(`Rounds`) is read as the number, whatever its digits and exponent are (`ofDecimal_of_rounds`).
-/
namespace IdlGen.Binary64

/-- Mantissa and exponent of a finite number: the mantissa has 53 bits, or fewer at the smallest
    exponent. -/
def IsNormal (m : Nat) (e : Int) : Prop :=
  m < 2 ^ 53 ∧ minExponent ≤ e ∧ e ≤ maxExponent ∧ (2 ^ 52 ≤ m ∨ e = minExponent)

instance (m : Nat) (e : Int) : Decidable (IsNormal m e) := by
  unfold IsNormal; infer_instance

def reach (m : Nat) (e : Int) : ℚ := if m = 2 ^ 52 ∧ minExponent < e then 1 / 4 else 1 / 2

structure Rounds (m : Nat) (e : Int) (q : ℚ) : Prop where
  low : (m - reach m e) * 2 ^ e ≤ q
  high : q ≤ (m + 1 / 2) * 2 ^ e
  inside : m % 2 = 1 → (m - reach m e) * 2 ^ e < q ∧ q < (m + 1 / 2) * 2 ^ e

theorem reach_le (m : Nat) (e : Int) : reach m e ≤ 1 / 2 := by
  unfold reach
  split <;> norm_num

theorem reach_pos (m : Nat) (e : Int) : 0 < reach m e := by
  unfold reach
  split <;> norm_num

variable {m d n : Nat} {e : Int}

theorem Rounds.of_inside {q : ℚ} (low : (m - reach m e) * 2 ^ e < q)
    (high : q < (m + 1 / 2) * 2 ^ e) : Rounds m e q :=
  ⟨low.le, high.le, fun _ => ⟨low, high⟩⟩

theorem Rounds.pos {q : ℚ} (rounds : Rounds m e q) (nonzero : 0 < m) : 0 < q := by
  have one : (1 : ℚ) ≤ m := by exact_mod_cast nonzero
  have short := reach_le m e
  have positive : (0 : ℚ) < (m - reach m e) * 2 ^ e :=
    mul_pos (by linarith) (zpow_pos two_pos e)
  exact positive.trans_le rounds.low

theorem scaled_pos (n : Nat) (pos : 0 < d) (e : Int) : 0 < (scaled n d e).2 := by
  unfold scaled
  split
  · exact Nat.mul_pos pos (Nat.pow_pos two_pos)
  · exact pos

theorem div_scaled (n d : Nat) (e : Int) :
    ((scaled n d e).1 : ℚ) / (scaled n d e).2 = n / d / 2 ^ e := by
  have power (k : Nat) : ((Nat.pow 2 k : Nat) : ℚ) = 2 ^ (k : Int) := by
    rw [Nat.pow_eq, Nat.cast_pow, zpow_natCast, Nat.cast_ofNat]
  unfold scaled
  split
  · next nonneg =>
    rw [Nat.cast_mul, power, Int.toNat_of_nonneg nonneg, div_div]
  · next negative =>
    rw [Nat.cast_mul, power, Int.toNat_of_nonneg (by omega), zpow_neg, div_div]
    field_simp

/-- Rounding a quotient gives the integer within one half, at exactly one half the even one. -/
theorem roundDiv_eq (pos : 0 < d) (low : (m : ℚ) - 1 / 2 ≤ n / d) (high : (n : ℚ) / d ≤ m + 1 / 2)
    (inside : m % 2 = 1 → (m : ℚ) - 1 / 2 < n / d ∧ (n : ℚ) / d < m + 1 / 2) :
    roundDiv n d = m := by
  have positive : (0 : ℚ) < d := by exact_mod_cast pos
  have least : 2 * (d * m) ≤ 2 * n + d := by
    rw [le_div_iff₀ positive] at low
    exact_mod_cast (by linarith : (2 : ℚ) * (d * m) ≤ 2 * n + d)
  have greatest : 2 * n ≤ 2 * (d * m) + d := by
    rw [div_le_iff₀ positive] at high
    exact_mod_cast (by linarith : (2 : ℚ) * n ≤ 2 * (d * m) + d)
  have strict : m % 2 = 1 → 2 * (d * m) < 2 * n + d ∧ 2 * n < 2 * (d * m) + d := by
    intro odd
    obtain ⟨above, below⟩ := inside odd
    rw [lt_div_iff₀ positive] at above
    rw [div_lt_iff₀ positive] at below
    constructor
    · exact_mod_cast (by linarith : (2 : ℚ) * (d * m) < 2 * n + d)
    · exact_mod_cast (by linarith : (2 : ℚ) * n < 2 * (d * m) + d)
  have rest := Nat.mod_lt n pos
  have parts := Nat.div_add_mod n d
  -- the integer is the quotient or the one after it
  have near : m = n / d ∨ m = n / d + 1 := by
    have notBelow : n / d ≤ m := by
      by_contra less
      have := Nat.mul_le_mul_left d (show m + 1 ≤ n / d by omega)
      rw [Nat.mul_add] at this
      omega
    have notAbove : m ≤ n / d + 1 := by
      by_contra more
      have := Nat.mul_le_mul_left d (show n / d + 2 ≤ m by omega)
      rw [Nat.mul_add] at this
      omega
    omega
  unfold roundDiv
  rcases near with here | next
  · rw [← here] at parts ⊢
    simp only
    split_ifs <;> omega
  · have times : d * m = d * (n / d) + d := by rw [next, Nat.mul_add, Nat.mul_one]
    simp only
    split_ifs <;> omega

theorem pow_log2_le (pos : 0 < n) : (2 : ℚ) ^ (n.log2 : Int) ≤ n := by
  rw [zpow_natCast]
  exact_mod_cast Nat.log2_self_le pos.ne'

theorem lt_pow_log2 (n : Nat) : (n : ℚ) < 2 ^ ((n.log2 : Int) + 1) := by
  have : (n : ℚ) < 2 ^ (n.log2 + 1) := by exact_mod_cast Nat.lt_log2_self
  rwa [← zpow_natCast, Nat.cast_add, Nat.cast_one] at this

theorem exponentOf_eq (ratio : 0 < n) (pos : 0 < d) :
    ∃ x, exponentOf n d = max minExponent x ∧ (2 : ℚ) ^ (x + 52) ≤ n / d ∧
      (n : ℚ) / d < 2 ^ (x + 53) := by
  have positive : (0 : ℚ) < d := by exact_mod_cast pos
  have two : (2 : ℚ) ≠ 0 := two_ne_zero
  set estimate : Int := Int.ofNat n.log2 - Int.ofNat d.log2 - 52 with estimated
  have above : (n : ℚ) / d < 2 ^ (estimate + 53) := by
    rw [div_lt_iff₀ positive]
    calc (n : ℚ) < 2 ^ ((n.log2 : Int) + 1) := lt_pow_log2 n
      _ = 2 ^ (estimate + 53) * 2 ^ (d.log2 : Int) := by
        rw [← zpow_add₀ two]; congr 1; simp only [estimated, Int.ofNat_eq_natCast]; omega
      _ ≤ 2 ^ (estimate + 53) * d :=
        mul_le_mul_of_nonneg_left (pow_log2_le pos) (zpow_pos two_pos _).le
  have below : (2 : ℚ) ^ (estimate - 1 + 52) ≤ n / d := by
    rw [le_div_iff₀ positive]
    calc (2 : ℚ) ^ (estimate - 1 + 52) * d
        ≤ 2 ^ (estimate - 1 + 52) * 2 ^ ((d.log2 : Int) + 1) :=
        mul_le_mul_of_nonneg_left (lt_pow_log2 d).le (zpow_pos two_pos _).le
      _ = 2 ^ (n.log2 : Int) := by
        rw [← zpow_add₀ two]; congr 1; simp only [estimated, Int.ofNat_eq_natCast]; omega
      _ ≤ n := pow_log2_le ratio
  have shifted : (n : ℚ) / d < 2 ^ (estimate + 52) ↔
      (scaled n d estimate).1 / (scaled n d estimate).2 < Nat.pow 2 52 := by
    have denominator : (0 : ℚ) < (scaled n d estimate).2 := by
      exact_mod_cast scaled_pos n pos estimate
    rw [Nat.div_lt_iff_lt_mul (scaled_pos n pos estimate), add_comm estimate, zpow_add₀ two,
      ← div_lt_iff₀ (zpow_pos two_pos estimate), ← div_scaled, div_lt_iff₀ denominator]
    norm_cast
  unfold exponentOf
  simp only [← estimated]
  split
  · next small =>
    exact ⟨estimate - 1, rfl, below, (shifted.mpr small).trans_eq (by congr 1; omega)⟩
  · next large =>
    exact ⟨estimate, rfl, not_lt.mp (mt shifted.mp large), above⟩

/-- A ratio that rounds to a number has the exponent of the number, except just below a power of
    two, where it has the next smaller one. -/
theorem exponentOf_of_rounds (normal : IsNormal m e) (nonzero : 0 < m) (pos : 0 < d)
    (rounds : Rounds m e (n / d)) :
    exponentOf n d = e ∨
      m = 2 ^ 52 ∧ minExponent < e ∧ exponentOf n d = e - 1 ∧ (n : ℚ) / d < 2 ^ 52 * 2 ^ e := by
  obtain ⟨small, least, -, full⟩ := normal
  have ratio : 0 < n := by
    rw [Nat.pos_iff_ne_zero]
    rintro rfl
    simpa using rounds.pos nonzero
  obtain ⟨x, found, low, high⟩ := exponentOf_eq ratio pos
  have unit : (0 : ℚ) < 2 ^ e := zpow_pos two_pos e
  have power (k : Nat) : (2 : ℚ) ^ (e + k) = 2 ^ k * 2 ^ e := by
    rw [zpow_add₀ two_ne_zero, zpow_natCast, mul_comm]
  have le (y z : Int) : (2 : ℚ) ^ y < 2 ^ z → y < z := (zpow_lt_zpow_iff_right₀ one_lt_two).mp
  have notAbove : x ≤ e := by
    have bits : (m : ℚ) + 1 ≤ 2 ^ 53 := by exact_mod_cast small
    have : (n : ℚ) / d < 2 ^ (e + (53 : Nat)) := by
      rw [power]
      exact rounds.high.trans_lt (mul_lt_mul_of_pos_right (by linarith) unit)
    have := le _ _ (low.trans_lt this)
    omega
  rcases eq_or_lt_of_le least with lowest | above
  · exact .inl (by rw [found, lowest]; omega)
  have bits : (2 : ℚ) ^ 52 ≤ m := by exact_mod_cast full.resolve_right above.ne'
  by_cases under : (n : ℚ) / d < 2 ^ 52 * 2 ^ e
  · -- only the interval of the power of two itself reaches below it
    have edge : m = 2 ^ 52 := by
      by_contra other
      have more : (2 : ℚ) ^ 52 + 1 ≤ m := by
        exact_mod_cast Nat.lt_of_le_of_ne (full.resolve_right above.ne') (Ne.symm other)
      have short := reach_le m e
      have := mul_le_mul_of_nonneg_right (show (2 : ℚ) ^ 52 ≤ m - reach m e by linarith) unit.le
      exact absurd under (this.trans rounds.low).not_gt
    refine .inr ⟨edge, above, ?_, under⟩
    have before : x < e := by
      have := le _ _ (low.trans_lt (under.trans_eq (power 52).symm))
      omega
    have after : e - 1 ≤ x := by
      have half : (2 : ℚ) ^ (e + (51 : Nat)) ≤ n / d := by
        rw [power]
        refine le_trans (mul_le_mul_of_nonneg_right ?_ unit.le) rounds.low
        have short := reach_le m e
        linarith
      have := le _ _ (half.trans_lt high)
      omega
    rw [found]
    omega
  · have after := le _ _ ((power 52).trans_le (not_lt.mp under) |>.trans_lt high)
    exact .inl (by rw [found]; omega)

theorem ofRatio?_of_rounds (negative : Bool) (normal : IsNormal m e) (nonzero : 0 < m)
    (pos : 0 < d) (rounds : Rounds m e (n / d)) :
    ofRatio? negative n d = some (finite negative m e) := by
  have ratio : n ≠ 0 := by
    rintro rfl
    simpa using rounds.pos nonzero
  have unit : (0 : ℚ) < 2 ^ e := zpow_pos two_pos e
  have low : (m : ℚ) - reach m e ≤ n / d / 2 ^ e := (le_div_iff₀ unit).mpr rounds.low
  have high : (n : ℚ) / d / 2 ^ e ≤ m + 1 / 2 := (div_le_iff₀ unit).mpr rounds.high
  have short := reach_le m e
  have bounded := normal.2.2.1
  unfold ofRatio?
  rw [if_neg ratio]
  rcases exponentOf_of_rounds normal nonzero pos rounds with same | ⟨edge, above, lower, under⟩
  · have mantissa : roundDiv (scaled n d e).1 (scaled n d e).2 = m := by
      apply roundDiv_eq (scaled_pos n pos e) <;> rw [div_scaled]
      · linarith
      · exact high
      · intro odd
        obtain ⟨more, less⟩ := rounds.inside odd
        rw [← lt_div_iff₀ unit] at more
        rw [← div_lt_iff₀ unit] at less
        exact ⟨by linarith, less⟩
    simp only [same, mantissa]
    rw [if_neg (show ¬m = Nat.pow 2 53 from normal.1.ne), if_neg (by simpa using bounded)]
  · -- one place further down the mantissa rounds up to the next power of two
    have mantissa : roundDiv (scaled n d (e - 1)).1 (scaled n d (e - 1)).2 = 2 ^ 53 := by
      have quarter : reach m e = 1 / 4 := if_pos ⟨edge, above⟩
      have double : (n : ℚ) / d / 2 ^ (e - 1) = 2 * (n / d / 2 ^ e) := by
        rw [zpow_sub_one₀ two_ne_zero]
        field_simp
      rw [quarter, edge] at low
      rw [← div_lt_iff₀ unit] at under
      push_cast at low
      apply roundDiv_eq (scaled_pos n pos (e - 1)) <;> rw [div_scaled, double] <;> push_cast
      · linarith
      · linarith
      · intro odd
        norm_num at odd
    simp only [lower, mantissa.trans (show 2 ^ 53 = Nat.pow 2 53 from rfl), if_true, sub_add_cancel]
    rw [if_neg (not_lt.mpr bounded), edge]
    rfl

theorem pow_decimalLength_le (pos : 0 < n) : (10 : ℚ) ^ ((decimalLength n : Int) - 1) ≤ n := by
  have some : 0 < decimalLength n := List.length_pos_iff.mpr Nat.toDigits_ne_nil
  have exponent : (decimalLength n : Int) - 1 = ((decimalLength n - 1 : Nat) : Int) := by omega
  rw [exponent, zpow_natCast]
  by_contra less
  have less : n < 10 ^ (decimalLength n - 1) := by exact_mod_cast not_le.mp less
  rcases Nat.eq_zero_or_pos (decimalLength n - 1) with zero | more
  · rw [zero] at less
    omega
  · have := (Nat.length_toDigits_le_iff (by decide) more).mpr less
    exact absurd this (by unfold decimalLength at some ⊢; omega)

theorem lt_pow_decimalLength (n : Nat) : (n : ℚ) < 10 ^ (decimalLength n : Int) := by
  have some : 0 < decimalLength n := List.length_pos_iff.mpr Nat.toDigits_ne_nil
  rw [zpow_natCast]
  exact_mod_cast (Nat.length_toDigits_le_iff (by decide) some).mp le_rfl

theorem two_pow_lt : (2 : ℚ) ^ 1075 < 10 ^ 400 := by
  calc (2 : ℚ) ^ 1075 ≤ 2 ^ (3 * 400) := pow_le_pow_right₀ one_le_two (by norm_num)
    _ = (2 ^ 3) ^ 400 := pow_mul _ _ _
    _ < 10 ^ 400 := pow_lt_pow_left₀ (by norm_num) (by norm_num) (by norm_num)

/-- Numbers are so far from the limits of the decimal exponent that no decimal which rounds to
    one of them is cut off. -/
theorem magnitude_of_rounds {digits : Nat} {k : Int} (normal : IsNormal m e) (nonzero : 0 < m)
    (rounds : Rounds m e (digits * 10 ^ k)) :
    -400 ≤ (decimalLength digits : Int) + k ∧ (decimalLength digits : Int) + k ≤ 400 := by
  obtain ⟨small, least, greatest, -⟩ := normal
  have ten (k : Int) : (0 : ℚ) < 10 ^ k := zpow_pos (by norm_num) k
  have unit : (0 : ℚ) < 2 ^ e := zpow_pos two_pos e
  have le (y z : Int) : (10 : ℚ) ^ y < 10 ^ z → y < z :=
    (zpow_lt_zpow_iff_right₀ (by norm_num)).mp
  have positive : 0 < digits := by
    rw [Nat.pos_iff_ne_zero]
    rintro rfl
    simpa using rounds.pos nonzero
  constructor
  · have one : (1 : ℚ) ≤ m := by exact_mod_cast nonzero
    have short := reach_le m e
    have low : (10 : ℚ) ^ (-400 : Int) < 10 ^ ((decimalLength digits : Int) + k) := by
      calc (10 : ℚ) ^ (-400 : Int) < 1 / 2 * 2 ^ minExponent := by
            rw [minExponent, zpow_neg, zpow_neg, one_div, ← mul_inv, zpow_ofNat, zpow_ofNat,
              ← pow_succ']
            exact inv_strictAnti₀ (by positivity) two_pow_lt
        _ ≤ (m - reach m e) * 2 ^ e :=
          mul_le_mul (by linarith) (zpow_le_zpow_right₀ one_le_two least)
            (zpow_pos two_pos _).le (by linarith)
        _ ≤ digits * 10 ^ k := rounds.low
        _ ≤ 10 ^ (decimalLength digits : Int) * 10 ^ k :=
          mul_le_mul_of_nonneg_right (lt_pow_decimalLength digits).le (ten k).le
        _ = 10 ^ ((decimalLength digits : Int) + k) := (zpow_add₀ (by norm_num) _ _).symm
    exact (le _ _ low).le
  · have bits : (m : ℚ) + 1 ≤ 2 ^ 53 := by exact_mod_cast small
    have high : (10 : ℚ) ^ ((decimalLength digits : Int) - 1 + k) < 10 ^ (400 : Int) := by
      calc (10 : ℚ) ^ ((decimalLength digits : Int) - 1 + k)
          = 10 ^ ((decimalLength digits : Int) - 1) * 10 ^ k := zpow_add₀ (by norm_num) _ _
        _ ≤ digits * 10 ^ k :=
          mul_le_mul_of_nonneg_right (pow_decimalLength_le positive) (ten k).le
        _ ≤ (m + 1 / 2) * 2 ^ e := rounds.high
        _ ≤ 2 ^ 53 * 2 ^ maxExponent :=
          mul_le_mul (by linarith) (zpow_le_zpow_right₀ one_le_two greatest) unit.le
            (by positivity)
        _ < 10 ^ (400 : Int) := by
            rw [maxExponent, zpow_ofNat, zpow_ofNat, ← pow_add]
            exact (pow_le_pow_right₀ one_le_two (by norm_num)).trans_lt two_pow_lt
    have := le _ _ high
    omega

theorem ofDecimal_of_rounds {digits : Nat} {k : Int} (negative : Bool) (normal : IsNormal m e)
    (nonzero : 0 < m) (rounds : Rounds m e (digits * 10 ^ k)) :
    ofDecimal negative digits k = finite negative m e := by
  have positive : digits ≠ 0 := by
    rintro rfl
    simpa using rounds.pos nonzero
  obtain ⟨least, greatest⟩ := magnitude_of_rounds normal nonzero rounds
  have guarded : ¬(digits = 0 || decide (Int.ofNat (decimalLength digits) + k < -400)) = true := by
    simpa [positive] using least
  have power (j : Nat) : ((Nat.pow 10 j : Nat) : ℚ) = 10 ^ (j : Int) := by
    rw [Nat.pow_eq, Nat.cast_pow, zpow_natCast, Nat.cast_ofNat]
  unfold ofDecimal
  simp only
  rw [if_neg guarded, if_neg (by simpa using greatest)]
  split
  · next nonneg =>
    rw [ofRatio?_of_rounds negative normal nonzero Nat.one_pos, Option.getD_some]
    rwa [Nat.cast_mul, power, Int.toNat_of_nonneg nonneg, Nat.cast_one, div_one]
  · next under =>
    have tens : 0 < Nat.pow 10 (-k).toNat := Nat.pow_pos (by decide)
    rw [ofRatio?_of_rounds negative normal nonzero tens, Option.getD_some]
    rwa [power, Int.toNat_of_nonneg (by omega), zpow_neg, div_inv_eq_mul]

end IdlGen.Binary64
