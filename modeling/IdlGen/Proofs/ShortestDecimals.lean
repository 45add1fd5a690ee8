import IdlGen.Number.Notation
import IdlGen.Proofs.Rounding

/-!
The decimals that numbers are written with. One of seventeen digits is in the neighbourhood of a
number (`seventeen_suffice`), so the search for the shortest ends with one that rounds to it
(`shortest_rounds`).
-/
namespace IdlGen.Binary64

theorem pow_toNat_div {b : Nat} (pos : 0 < b) (k : Int) :
    ((Nat.pow b k.toNat : Nat) : ℚ) / (Nat.pow b (-k).toNat : Nat) = (b : ℚ) ^ k := by
  have nonzero : (b : ℚ) ≠ 0 := by exact_mod_cast pos.ne'
  rw [Nat.pow_eq, Nat.pow_eq, Nat.cast_pow, Nat.cast_pow, ← zpow_natCast, ← zpow_natCast,
    ← zpow_sub₀ nonzero, Int.toNat_sub_toNat_neg]

theorem denominator_pos (m : Nat) (e : Int) : 0 < (neighbourhood m e).denominator :=
  Nat.pow_pos two_pos

theorem quarters (m : Nat) (e : Int) (count : Nat) :
    ((count * Nat.pow 2 (e - 2).toNat : Nat) : ℚ) / (neighbourhood m e).denominator =
      count / 4 * 2 ^ e := by
  have shape : (neighbourhood m e).denominator = Nat.pow 2 (-(e - 2)).toNat := by
    rw [neg_sub]
    rfl
  rw [shape, Nat.cast_mul, mul_div_assoc, pow_toNat_div two_pos, Nat.cast_ofNat,
    zpow_sub₀ two_ne_zero]
  norm_num
  ring

theorem neighbourhood_value (m : Nat) (e : Int) :
    ((neighbourhood m e).value : ℚ) / (neighbourhood m e).denominator = m * 2 ^ e := by
  refine (quarters m e (4 * m)).trans ?_
  push_cast
  ring

theorem neighbourhood_high (m : Nat) (e : Int) :
    ((neighbourhood m e).high : ℚ) / (neighbourhood m e).denominator = (m + 1 / 2) * 2 ^ e := by
  refine (quarters m e (4 * m + 2)).trans ?_
  push_cast
  ring

variable {m : Nat} {n : Neighbourhood} {leading : Int}

theorem neighbourhood_low (nonzero : 0 < m) (e : Int) :
    ((neighbourhood m e).low : ℚ) / (neighbourhood m e).denominator =
      (m - reach m e) * 2 ^ e := by
  refine (quarters m e _).trans ?_
  unfold reach
  by_cases edge : m = 2 ^ 52 ∧ minExponent < e
  · rw [if_pos edge, if_pos (show m = Nat.pow 2 52 ∧ minExponent < e from edge),
      Nat.cast_sub (by omega)]
    push_cast
    ring
  · rw [if_neg edge, if_neg (show ¬(m = Nat.pow 2 52 ∧ minExponent < e) from edge),
      Nat.cast_sub (by omega)]
    push_cast
    ring

theorem holds_iff (nonzero : 0 < m) (e : Int) {numerator scale : Nat} (pos : 0 < scale) :
    (neighbourhood m e).holds numerator scale = true ↔
      Rounds m e (numerator / scale / (neighbourhood m e).denominator) := by
  have denominator : (0 : ℚ) < (neighbourhood m e).denominator := by
    exact_mod_cast denominator_pos m e
  have positive : (0 : ℚ) < scale := by exact_mod_cast pos
  have above : (neighbourhood m e).low * scale ≤ numerator ↔
      (m - reach m e) * 2 ^ e ≤ numerator / scale / (neighbourhood m e).denominator := by
    rw [← neighbourhood_low nonzero, div_le_div_iff_of_pos_right denominator,
      le_div_iff₀ positive]
    norm_cast
  have below : numerator ≤ (neighbourhood m e).high * scale ↔
      numerator / scale / (neighbourhood m e).denominator ≤ ((m : ℚ) + 1 / 2) * 2 ^ e := by
    rw [← neighbourhood_high, div_le_div_iff_of_pos_right denominator, div_le_iff₀ positive]
    norm_cast
  have beyond : (neighbourhood m e).low * scale < numerator ↔
      (m - reach m e) * 2 ^ e < numerator / scale / (neighbourhood m e).denominator := by
    rw [← neighbourhood_low nonzero, div_lt_div_iff_of_pos_right denominator,
      lt_div_iff₀ positive]
    norm_cast
  have within : numerator < (neighbourhood m e).high * scale ↔
      numerator / scale / (neighbourhood m e).denominator < ((m : ℚ) + 1 / 2) * 2 ^ e := by
    rw [← neighbourhood_high, div_lt_div_iff_of_pos_right denominator, div_lt_iff₀ positive]
    norm_cast
  have closed : (neighbourhood m e).closed = decide (m % 2 = 0) := rfl
  unfold Neighbourhood.holds
  rw [closed]
  by_cases even : m % 2 = 0
  · simp only [even, decide_true, if_true, Bool.and_eq_true, decide_eq_true_iff, above, below]
    exact ⟨fun both => ⟨both.1, both.2, by omega⟩, fun rounds => ⟨rounds.low, rounds.high⟩⟩
  · simp only [even, decide_false, Bool.false_eq_true, if_false, Bool.and_eq_true,
      decide_eq_true_iff, beyond, within]
    exact ⟨fun both => .of_inside both.1 both.2,
      fun rounds => rounds.inside (by omega)⟩

theorem holds_decimal_iff (nonzero : 0 < m) (e k : Int) (digits : Nat) :
    (neighbourhood m e).holds (digits * ((neighbourhood m e).denominator * Nat.pow 10 k.toNat))
        (Nat.pow 10 (-k).toNat) = true ↔ Rounds m e (digits * 10 ^ k) := by
  have denominator : ((neighbourhood m e).denominator : ℚ) ≠ 0 := by
    exact_mod_cast (denominator_pos m e).ne'
  have value : ((digits * ((neighbourhood m e).denominator * Nat.pow 10 k.toNat) : Nat) : ℚ) /
      (Nat.pow 10 (-k).toNat : Nat) / (neighbourhood m e).denominator = digits * 10 ^ k := by
    rw [show (10 : ℚ) = (10 : Nat) by norm_num, ← pow_toNat_div (by decide) k]
    push_cast
    field_simp
  have tens : 0 < Nat.pow 10 (-k).toNat := Nat.pow_pos (by decide)
  rw [holds_iff nonzero e tens, value]

theorem holds_of_decimalOf? {k : Int} {count digits : Nat}
    (found : decimalOf? n leading count = some (digits, k)) :
    n.holds (digits * (n.denominator * Nat.pow 10 k.toNat)) (Nat.pow 10 (-k).toNat) = true := by
  unfold decimalOf? at found
  simp only at found
  split_ifs at found with up down
  · cases found
    exact (Bool.and_eq_true_iff.mp up).1
  · cases found
    exact down

theorem decimalOf?_isSome {n : Neighbourhood} {leading k : Int} {count : Nat}
    (exponent : k = leading - Int.ofNat count + 1)
    (hit : ∃ digits,
      (digits = n.value * Nat.pow 10 (-k).toNat / (n.denominator * Nat.pow 10 k.toNat) ∨
        digits = n.value * Nat.pow 10 (-k).toNat / (n.denominator * Nat.pow 10 k.toNat) + 1) ∧
      n.holds (digits * (n.denominator * Nat.pow 10 k.toNat)) (Nat.pow 10 (-k).toNat) = true) :
    (decimalOf? n leading count).isSome := by
  subst exponent
  obtain ⟨digits, rfl | rfl, held⟩ := hit
  · unfold decimalOf?
    simp only [held, Bool.not_true, Bool.or_false, if_true]
    split <;> rfl
  · unfold decimalOf?
    simp only [held, Bool.true_and]
    split_ifs with nearer down
    · rfl
    · rfl
    · rw [Bool.not_eq_true] at down
      rw [down] at nearer
      exact absurd (Bool.or_true _) nearer

theorem pow_leadingExponent_le {n d : Nat} (ratio : 0 < n) (pos : 0 < d) :
    (10 : ℚ) ^ leadingExponent n d ≤ n / d := by
  have positive : (0 : ℚ) < d := by exact_mod_cast pos
  set estimate : Int := Int.ofNat (decimalLength n) - Int.ofNat (decimalLength d) with estimated
  have least : (10 : ℚ) ^ (estimate - 1) ≤ n / d := by
    rw [le_div_iff₀ positive]
    calc (10 : ℚ) ^ (estimate - 1) * d
        ≤ 10 ^ (estimate - 1) * 10 ^ (decimalLength d : Int) :=
        mul_le_mul_of_nonneg_left (lt_pow_decimalLength d).le (zpow_pos (by norm_num) _).le
      _ = 10 ^ ((decimalLength n : Int) - 1) := by
        rw [← zpow_add₀ (by norm_num)]; congr 1; simp only [estimated, Int.ofNat_eq_natCast]; omega
      _ ≤ n := pow_decimalLength_le ratio
  have reached (k : Int) : (if 0 ≤ k then decide (n < d * Nat.pow 10 k.toNat)
      else decide (n * Nat.pow 10 (-k).toNat < d)) = false → (10 : ℚ) ^ k ≤ n / d := by
    intro notBelow
    rw [show (10 : ℚ) = (10 : Nat) by norm_num, ← pow_toNat_div (by decide) k]
    split_ifs at notBelow with sign
    · rw [show (-k).toNat = 0 by omega, le_div_iff₀ positive]
      have := not_lt.mp (of_decide_eq_false notBelow)
      rw [mul_comm] at this
      simpa using (by exact_mod_cast this : ((Nat.pow 10 k.toNat : Nat) : ℚ) * d ≤ n)
    · have tens : (0 : ℚ) < (Nat.pow 10 (-k).toNat : Nat) := by
        exact_mod_cast (Nat.pow_pos (by decide) : 0 < 10 ^ (-k).toNat)
      rw [show k.toNat = 0 by omega, div_le_div_iff₀ tens positive]
      have := not_lt.mp (of_decide_eq_false notBelow)
      simpa using (by exact_mod_cast this : (d : ℚ) ≤ n * (Nat.pow 10 (-k).toNat : Nat))
  unfold leadingExponent
  simp only [← estimated]
  exact iteInduction (motive := fun x => (10 : ℚ) ^ x ≤ n / d) (fun _ => least)
    fun notBelow => reached estimate (Bool.eq_false_iff.mpr notBelow)

theorem between_decimals (m : Nat) (e k : Int) {down : Nat}
    (found : down = (neighbourhood m e).value * Nat.pow 10 (-k).toNat /
      ((neighbourhood m e).denominator * Nat.pow 10 k.toNat)) :
    (down : ℚ) * 10 ^ k ≤ m * 2 ^ e ∧ m * 2 ^ e < (down + 1 : ℚ) * 10 ^ k := by
  set n := neighbourhood m e with shape
  have denominator : (0 : ℚ) < n.denominator := by exact_mod_cast denominator_pos m e
  have tens : 0 < Nat.pow 10 k.toNat := Nat.pow_pos (by decide)
  have scale : (0 : ℚ) < (Nat.pow 10 (-k).toNat : Nat) := by
    exact_mod_cast (Nat.pow_pos (by decide) : 0 < 10 ^ (-k).toNat)
  have cells := Nat.mul_pos (denominator_pos m e) tens
  rw [← neighbourhood_value, ← shape, show (10 : ℚ) = (10 : Nat) by norm_num,
    ← pow_toNat_div (by decide) k, ← mul_div_assoc, ← mul_div_assoc,
    div_le_div_iff₀ scale denominator, div_lt_div_iff₀ denominator scale]
  constructor
  · have below := Nat.div_mul_le_self (n.value * Nat.pow 10 (-k).toNat)
      (n.denominator * Nat.pow 10 k.toNat)
    rw [← found] at below
    have : (down : ℚ) * (n.denominator * (Nat.pow 10 k.toNat : Nat)) ≤
        n.value * (Nat.pow 10 (-k).toNat : Nat) := by exact_mod_cast below
    linarith
  · have above := Nat.lt_mul_div_succ (n.value * Nat.pow 10 (-k).toNat) cells
    rw [← shape, ← found] at above
    have : (n.value : ℚ) * (Nat.pow 10 (-k).toNat : Nat) <
        n.denominator * (Nat.pow 10 k.toNat : Nat) * (down + 1) := by exact_mod_cast above
    linarith

theorem seventeen_suffice {e : Int} (normal : IsNormal m e) (nonzero : 0 < m)
    (leads : (10 : ℚ) ^ leading ≤ m * 2 ^ e) :
    (decimalOf? (neighbourhood m e) leading 17).isSome := by
  set n := neighbourhood m e
  set k : Int := leading - Int.ofNat 17 + 1 with exponent
  apply decimalOf?_isSome exponent
  set down := n.value * Nat.pow 10 (-k).toNat / (n.denominator * Nat.pow 10 k.toNat)
  have unit : (0 : ℚ) < 2 ^ e := zpow_pos two_pos e
  have grid : (0 : ℚ) < 10 ^ k := zpow_pos (by norm_num) k
  have value : (down : ℚ) * 10 ^ k ≤ m * 2 ^ e ∧ m * 2 ^ e < (down + 1 : ℚ) * 10 ^ k :=
    between_decimals m e k rfl
  have close : (10 : ℚ) ^ k * 10 ^ 16 ≤ m * 2 ^ e := by
    refine le_of_eq_of_le ?_ leads
    rw [← zpow_natCast, ← zpow_add₀ (by norm_num)]
    congr 1
    simp only [exponent, Int.ofNat_eq_natCast]
    omega
  have bits : (m : ℚ) ≤ 2 ^ 53 := by exact_mod_cast normal.1.le
  have size := mul_le_mul_of_nonneg_right bits unit.le
  by_cases edge : m = 2 ^ 52 ∧ minExponent < e
  · -- the interval is narrow below a power of two but wide above it
    refine ⟨down + 1, .inr rfl, (holds_decimal_iff nonzero e k _).mpr ⟨?_, ?_, ?_⟩⟩
    · have := mul_pos (reach_pos m e) unit
      push_cast
      linarith
    · rw [edge.1] at close value ⊢
      push_cast at close value ⊢
      linarith
    · rw [edge.1]
      intro odd
      norm_num at odd
  · have half : reach m e = 1 / 2 := if_neg edge
    by_cases nearer : 2 * (m * 2 ^ e - down * 10 ^ k) < (10 : ℚ) ^ k
    · have inside : (m - reach m e) * 2 ^ e < (down : ℚ) * 10 ^ k ∧
          (down : ℚ) * 10 ^ k < (m + 1 / 2) * 2 ^ e := by
        rw [half]
        constructor <;> linarith
      exact ⟨down, .inl rfl, (holds_decimal_iff nonzero e k _).mpr (.of_inside inside.1 inside.2)⟩
    · have inside : (m - reach m e) * 2 ^ e < (down + 1 : Nat) * (10 : ℚ) ^ k ∧
          (down + 1 : Nat) * (10 : ℚ) ^ k < (m + 1 / 2) * 2 ^ e := by
        rw [half]
        push_cast
        constructor <;> linarith
      exact ⟨down + 1, .inr rfl, (holds_decimal_iff nonzero e k _).mpr
        (.of_inside inside.1 inside.2)⟩

theorem shortestFrom_found {length : Nat} (found : (decimalOf? n leading length).isSome)
    (fuel : Nat) :
    ∀ count, count ≤ length → length < count + fuel →
      ∃ length, decimalOf? n leading length = some (shortestFrom n leading count fuel) := by
  induction fuel with
  | zero => omega
  | succ fuel ih =>
    intro count least most
    rw [shortestFrom]
    cases here : decimalOf? n leading count with
    | some decimal => exact ⟨count, here⟩
    | none =>
      have notHere : count ≠ length := by
        rintro rfl
        rw [here] at found
        cases found
      exact ih (count + 1) (by omega) (by omega)

theorem shortest_rounds {e : Int} (normal : IsNormal m e) (nonzero : 0 < m) :
    Rounds m e ((shortest m e).1 * 10 ^ (shortest m e).2) := by
  have positive : 0 < (neighbourhood m e).value := by
    have : 0 < Nat.pow 2 (e - 2).toNat := Nat.pow_pos two_pos
    exact Nat.mul_pos (by omega) this
  have leads := pow_leadingExponent_le positive (denominator_pos m e)
  rw [neighbourhood_value] at leads
  obtain ⟨length, found⟩ :=
    shortestFrom_found (seventeen_suffice normal nonzero leads) 17 1 (by decide) (by decide)
  exact (holds_decimal_iff nonzero e _ _).mp (holds_of_decimalOf? found)

end IdlGen.Binary64
