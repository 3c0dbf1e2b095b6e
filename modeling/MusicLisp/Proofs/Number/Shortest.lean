import MusicLisp.Number.Shortest
import MusicLisp.Proofs.Number.Rounding

/-!
# Shortest decimals read back

The nearest double of a decimal depends on the value of the decimal only (`bits_congr`), so taking off zeros
at its end changes nothing. A candidate on a grid is taken only if it reads back, and the whole expansion
has the value of the double itself: either way the shortest decimal reads back (`bits_shortest`).
-/

namespace MusicLisp.Decimal

/-! ### Values -/

/-- The rational number that a decimal stands for. -/
def value (d : Decimal) : ℚ := d.digits * (10 : ℚ) ^ d.exponent

theorem fraction_pos (d : Decimal) : 0 < d.fraction.2 :=
  Binary64.overPower_pos (by decide) one_pos d.digits (-d.exponent)

theorem ratio_fraction (d : Decimal) : Binary64.ratio d.fraction = d.value := by
  rw [fraction, Binary64.ratio_overPower (by decide), zpow_neg, value]
  push_cast
  rw [div_inv_eq_mul, div_one]

/-- The nearest double depends on the value of a decimal only. -/
theorem bits_congr {d d' : Decimal} (h : d.value = d'.value) : d.bits = d'.bits :=
  Binary64.nearestBits_congr d.fraction_pos d'.fraction_pos (by rw [ratio_fraction, ratio_fraction, h])

theorem value_strip (digits : Nat) (exponent : Int) :
    (strip digits exponent).value = (⟨digits, exponent⟩ : Decimal).value := by
  rw [strip]
  split
  · next h =>
    rw [value_strip (digits / 10) (exponent + 1), value, value, zpow_add_one₀ (by norm_num)]
    have hd : digits = digits / 10 * 10 := by omega
    have hq : (digits : ℚ) = (digits / 10 : Nat) * 10 := by exact_mod_cast hd
    dsimp only
    rw [hq, mul_assoc, mul_comm (10 : ℚ)]
  · rfl
termination_by digits
decreasing_by omega

theorem value_exact (mantissa : Nat) (exponent : Int) :
    (exact mantissa exponent).value = mantissa * (2 : ℚ) ^ exponent := by
  cases exponent with
  | ofNat n =>
    rw [exact, value, Int.ofNat_eq_natCast, zpow_natCast, zpow_zero, mul_one, Nat.pow_eq]
    push_cast
    rfl
  | negSucc n =>
    rw [exact, value, zpow_negSucc, zpow_negSucc, Nat.pow_eq]
    push_cast
    rw [show (10 : ℚ) = 5 * 2 by norm_num, mul_pow]
    field_simp

/-! ### The shortest decimal -/

theorem bits_of_onGrid? {bits num den : Nat} {place : Int} {d : Decimal}
    (h : onGrid? bits num den place = some d) : d.bits = bits := by
  unfold onGrid? at h
  dsimp only at h
  split at h
  · next hlow _ => cases h; exact of_decide_eq_true hlow
  · next _ hhigh => cases h; exact of_decide_eq_true hhigh
  · next hlow hhigh =>
    cases h
    split
    · exact of_decide_eq_true hlow
    · exact of_decide_eq_true hhigh
  · cases h

/-- **The shortest decimal of a double reads back as it.** -/
theorem bits_shortest (mantissa : Nat) (exponent : Int) : (shortest mantissa exponent).bits =
    Binary64.nearestBits (Binary64.fraction mantissa exponent).1
      (Binary64.fraction mantissa exponent).2 := by
  have hexact : (exact mantissa exponent).bits =
      Binary64.nearestBits (Binary64.fraction mantissa exponent).1
        (Binary64.fraction mantissa exponent).2 := by
    refine Binary64.nearestBits_congr (fraction_pos _) (Binary64.fraction_pos _ _) ?_
    rw [ratio_fraction, value_exact, Binary64.ratio_fraction]
  unfold shortest
  split
  · next h0 =>
    rw [← hexact]
    refine bits_congr ?_
    rw [value_exact, value, h0, Nat.cast_zero, zero_mul, zero_mul]
  · dsimp only
    refine (bits_congr (value_strip _ _)).trans ?_
    cases hf : (List.range 17).findSome? _ with
    | none => exact hexact
    | some d =>
      obtain ⟨n, -, hn⟩ := List.exists_of_findSome?_eq_some hf
      exact bits_of_onGrid? hn

end MusicLisp.Decimal
