import Mathlib
import MusicLisp.Number.Binary64

/-!
# Rounding to doubles

What the nearest double to a fraction depends on, and where it is exact. Fractions are compared as
rational numbers (`ratio`).

* `nearestBits_congr`: the nearest double depends on the value of the fraction, not on its terms.
* `Exact.nearestBits_eq`: a fraction that is a mantissa over a power of two, as doubles have them, is not
  rounded.
* `assemble_nearestBits`: so a finite double is its sign and the double nearest to its value.

What is known of the bits of a `Float` comes with the whole of Mathlib only, which is why it is imported here.
-/

namespace MusicLisp.Binary64

/-! ### Fractions as rational numbers -/

/-- The rational number that a fraction stands for. -/
def ratio (f : Nat × Nat) : ℚ := f.1 / f.2

theorem overPower_pos {base den : Nat} (hbase : 0 < base) (hden : 0 < den) (num : Nat) (place : Int) :
    0 < (overPower base num den place).2 := by
  cases place with
  | ofNat n => exact Nat.mul_pos hden (Nat.pow_pos hbase)
  | negSucc n => exact hden

theorem ratio_overPower {base : Nat} (hbase : 0 < base) (num den : Nat) (place : Int) :
    ratio (overPower base num den place) = num / den / (base : ℚ) ^ place := by
  have hb : (base : ℚ) ≠ 0 := Nat.cast_ne_zero.mpr hbase.ne'
  cases place with
  | ofNat n =>
    rw [ratio, overPower, Int.ofNat_eq_natCast, zpow_natCast, Nat.pow_eq]
    push_cast
    rw [div_div]
  | negSucc n =>
    rw [ratio, overPower, zpow_negSucc, Nat.pow_eq]
    push_cast
    rw [div_inv_eq_mul, div_mul_eq_mul_div]

/-- A fraction is below a power if it is below one over the power. -/
theorem overPower_lt_iff {base den : Nat} (hbase : 0 < base) (hden : 0 < den) (num : Nat)
    (place : Int) : (overPower base num den place).1 < (overPower base num den place).2 ↔
      (num / den : ℚ) < (base : ℚ) ^ place := by
  have hb : (0 : ℚ) < base := Nat.cast_pos.mpr hbase
  have hpos : (0 : ℚ) < (overPower base num den place).2 :=
    Nat.cast_pos.mpr (overPower_pos hbase hden num place)
  rw [← div_lt_one (zpow_pos hb place), ← ratio_overPower hbase, ratio, div_lt_one hpos, Nat.cast_lt]

theorem ratio_eq_iff {f g : Nat × Nat} (hf : 0 < f.2) (hg : 0 < g.2) :
    ratio f = ratio g ↔ f.1 * g.2 = g.1 * f.2 := by
  have hf' : (f.2 : ℚ) ≠ 0 := Nat.cast_ne_zero.mpr hf.ne'
  have hg' : (g.2 : ℚ) ≠ 0 := Nat.cast_ne_zero.mpr hg.ne'
  rw [ratio, ratio, div_eq_div_iff hf' hg']
  exact_mod_cast Iff.rfl

/-! ### Rounding depends on the value only -/

theorem roundHalfEven_mul {k : Nat} (hk : 0 < k) (num den : Nat) :
    roundHalfEven (k * num) (k * den) = roundHalfEven num den := by
  have hlt : k * den < 2 * (k * (num % den)) ↔ den < 2 * (num % den) := by
    rw [Nat.mul_left_comm]; exact Nat.mul_lt_mul_left hk
  have heq : k * den = 2 * (k * (num % den)) ↔ den = 2 * (num % den) := by
    rw [Nat.mul_left_comm]; exact Nat.mul_right_inj hk.ne'
  unfold roundHalfEven
  simp only [Nat.mul_div_mul_left num den hk, Nat.mul_mod_mul_left, hlt, heq]

theorem roundHalfEven_congr {f g : Nat × Nat} (hf : 0 < f.2) (hg : 0 < g.2)
    (h : ratio f = ratio g) : roundHalfEven f.1 f.2 = roundHalfEven g.1 g.2 := by
  rw [← roundHalfEven_mul hg f.1 f.2, ← roundHalfEven_mul hf g.1 g.2, Nat.mul_comm g.2 f.1,
    (ratio_eq_iff hf hg).mp h, Nat.mul_comm g.1 f.2, Nat.mul_comm g.2 f.2]

theorem roundHalfEven_whole {den : Nat} (hden : 0 < den) (n : Nat) :
    roundHalfEven (n * den) den = n := by
  unfold roundHalfEven
  simp only [Nat.mul_div_cancel n hden, Nat.mul_mod_left]
  rw [if_neg (by omega)]

/-! ### The binary logarithm -/

theorem log2_bounds {n : Nat} (hn : 0 < n) :
    (2 : ℚ) ^ (n.log2 : ℤ) ≤ n ∧ (n : ℚ) < 2 ^ ((n.log2 : ℤ) + 1) := by
  have hlow : 2 ^ n.log2 ≤ n := Nat.log2_self_le hn.ne'
  have hhigh : n < 2 ^ (n.log2 + 1) := Nat.lt_log2_self
  constructor
  · exact_mod_cast hlow
  · exact_mod_cast hhigh

section Log

variable {num den : Nat} (hnum : 0 < num) (hden : 0 < den)
include hnum hden

/-- The binary logarithm is the exponent of the power of two at or below the fraction. -/
theorem floorLog2_spec :
    (2 : ℚ) ^ floorLog2 num den ≤ num / den ∧ (num / den : ℚ) < 2 ^ (floorLog2 num den + 1) := by
  have hd : (0 : ℚ) < den := Nat.cast_pos.mpr hden
  obtain ⟨hn1, hn2⟩ := log2_bounds hnum
  obtain ⟨hd1, hd2⟩ := log2_bounds hden
  have hlow : (2 : ℚ) ^ ((num.log2 : ℤ) - den.log2 - 1) ≤ num / den := by
    rw [le_div_iff₀ hd]
    calc (2 : ℚ) ^ ((num.log2 : ℤ) - den.log2 - 1) * den
        ≤ 2 ^ ((num.log2 : ℤ) - den.log2 - 1) * 2 ^ ((den.log2 : ℤ) + 1) := by gcongr
      _ = 2 ^ (num.log2 : ℤ) := by rw [← zpow_add₀ two_ne_zero]; congr 1; omega
      _ ≤ num := hn1
  have hhigh : (num / den : ℚ) < 2 ^ ((num.log2 : ℤ) - den.log2 + 1) := by
    rw [div_lt_iff₀ hd]
    calc (num : ℚ) < 2 ^ ((num.log2 : ℤ) + 1) := hn2
      _ = 2 ^ ((num.log2 : ℤ) - den.log2 + 1) * 2 ^ (den.log2 : ℤ) := by
        rw [← zpow_add₀ two_ne_zero]; congr 1; omega
      _ ≤ 2 ^ ((num.log2 : ℤ) - den.log2 + 1) * den := by gcongr
  unfold floorLog2
  dsimp only
  split
  · next h =>
    refine ⟨hlow, ?_⟩
    rw [Int.sub_add_cancel]
    exact_mod_cast (overPower_lt_iff two_pos hden num _).mp h
  · next h =>
    refine ⟨?_, hhigh⟩
    exact_mod_cast not_lt.mp (mt (overPower_lt_iff two_pos hden num _).mpr h)

theorem floorLog2_eq {e : Int} (hlow : (2 : ℚ) ^ e ≤ num / den)
    (hhigh : (num / den : ℚ) < 2 ^ (e + 1)) : floorLog2 num den = e := by
  obtain ⟨h1, h2⟩ := floorLog2_spec hnum hden
  have hle : floorLog2 num den < e + 1 :=
    (zpow_lt_zpow_iff_right₀ one_lt_two).mp (lt_of_le_of_lt h1 hhigh)
  have hge : e < floorLog2 num den + 1 :=
    (zpow_lt_zpow_iff_right₀ one_lt_two).mp (lt_of_le_of_lt hlow h2)
  omega

end Log

/-! ### The nearest double -/

/-- The last binary place of the double nearest to a fraction. -/
def lastPlace (num den : Nat) : Int := max (floorLog2 num den - 52) leastExponent

/-- A fraction rounded to a whole multiple of a power of two. -/
def roundAt (place : Int) (num den : Nat) : Nat :=
  roundHalfEven (overPower 2 num den place).1 (overPower 2 num den place).2

theorem nearestBits_zero (den : Nat) : nearestBits 0 den = 0 := by
  unfold nearestBits
  rw [if_pos rfl]

theorem nearestBits_eq {num : Nat} (hnum : num ≠ 0) (den : Nat) : nearestBits num den =
    min (roundAt (lastPlace num den) num den +
      (lastPlace num den - leastExponent).toNat * 2 ^ 52) infinityBits := by
  unfold nearestBits
  rw [if_neg hnum]
  rfl

/-- **The nearest double depends on the value of the fraction only.** -/
theorem nearestBits_congr {f g : Nat × Nat} (hf : 0 < f.2) (hg : 0 < g.2) (h : ratio f = ratio g) :
    nearestBits f.1 f.2 = nearestBits g.1 g.2 := by
  have hcross := (ratio_eq_iff hf hg).mp h
  by_cases hz : f.1 = 0
  · have hz' : g.1 = 0 := by
      rw [hz, Nat.zero_mul] at hcross
      exact (Nat.mul_eq_zero.mp hcross.symm).resolve_right hf.ne'
    rw [hz, hz', nearestBits_zero, nearestBits_zero]
  · have hz' : g.1 ≠ 0 := by
      intro h0
      rw [h0, Nat.zero_mul] at hcross
      exact (Nat.mul_ne_zero hz hg.ne') hcross
    have hlog : floorLog2 f.1 f.2 = floorLog2 g.1 g.2 := by
      obtain ⟨h1, h2⟩ := floorLog2_spec (Nat.pos_of_ne_zero hz') hg
      exact floorLog2_eq (Nat.pos_of_ne_zero hz) hf (le_of_le_of_eq h1 h.symm)
        (lt_of_eq_of_lt h h2)
    have hplace : lastPlace f.1 f.2 = lastPlace g.1 g.2 := by rw [lastPlace, hlog, lastPlace]
    have hround : ∀ place, roundAt place f.1 f.2 = roundAt place g.1 g.2 := by
      intro place
      refine roundHalfEven_congr (overPower_pos two_pos hf _ _) (overPower_pos two_pos hg _ _) ?_
      rw [ratio_overPower two_pos, ratio_overPower two_pos]
      exact congrArg (· / _) h
    rw [nearestBits_eq hz, nearestBits_eq hz', hplace, hround]

/-! ### Where rounding is exact -/

/-- A fraction is a mantissa over a power of two in the way doubles have it: with all its 53 bits, or with
the least exponent. -/
structure Exact (f : Nat × Nat) (mantissa : Nat) (exponent : Int) : Prop where
  den_pos : 0 < f.2
  ratio_eq : ratio f = mantissa * (2 : ℚ) ^ exponent
  pos : 0 < mantissa
  lt : mantissa < 2 ^ 53
  least_le : leastExponent ≤ exponent
  lead : exponent = leastExponent ∨ 2 ^ 52 ≤ mantissa

namespace Exact

variable {f : Nat × Nat} {mantissa : Nat} {exponent : Int} (h : Exact f mantissa exponent)
include h

theorem num_pos : 0 < f.1 := by
  have hm : (0 : ℚ) < mantissa := Nat.cast_pos.mpr h.pos
  have hp : (0 : ℚ) < (2 : ℚ) ^ exponent := zpow_pos two_pos exponent
  have hr := h.ratio_eq
  refine Nat.pos_of_ne_zero fun h0 => ?_
  rw [ratio, h0, Nat.cast_zero, zero_div] at hr
  exact (mul_pos hm hp).ne hr

/-- The last place is that of the mantissa, by the bounds on it. -/
theorem lastPlace_eq : lastPlace f.1 f.2 = exponent := by
  have hp : (0 : ℚ) < (2 : ℚ) ^ exponent := zpow_pos two_pos exponent
  have hlt := h.lt
  have hleast := h.least_le
  obtain ⟨hlow, hhigh⟩ := floorLog2_spec h.num_pos h.den_pos
  rw [show (f.1 / f.2 : ℚ) = ratio f from rfl, h.ratio_eq] at hlow hhigh
  have hupper : floorLog2 f.1 f.2 < exponent + 53 := by
    refine (zpow_lt_zpow_iff_right₀ (one_lt_two (α := ℚ))).mp (lt_of_le_of_lt hlow ?_)
    rw [zpow_add₀ two_ne_zero, mul_comm]
    refine (mul_lt_mul_iff_right₀ hp).mpr ?_
    exact_mod_cast hlt
  rcases h.lead with rfl | hlead
  · rw [lastPlace, max_eq_right (by omega)]
  · have hlower : exponent + 52 < floorLog2 f.1 f.2 + 1 := by
      refine (zpow_lt_zpow_iff_right₀ (one_lt_two (α := ℚ))).mp (lt_of_le_of_lt ?_ hhigh)
      rw [zpow_add₀ two_ne_zero, mul_comm]
      refine (mul_le_mul_iff_left₀ hp).mpr ?_
      exact_mod_cast hlead
    rw [lastPlace, max_eq_left (by omega)]
    omega

theorem roundAt_eq : roundAt exponent f.1 f.2 = mantissa := by
  have hp : (2 : ℚ) ^ exponent ≠ 0 := (zpow_pos two_pos exponent).ne'
  have hden : 0 < (overPower 2 f.1 f.2 exponent).2 := overPower_pos two_pos h.den_pos f.1 exponent
  have hr : ratio (overPower 2 f.1 f.2 exponent) = ratio (mantissa * 1, 1) := by
    rw [ratio_overPower two_pos, show (f.1 / f.2 : ℚ) = ratio f from rfl, h.ratio_eq, ratio]
    push_cast
    rw [mul_div_cancel_right₀ _ hp, mul_one, div_one]
  rw [roundAt, roundHalfEven_congr hden one_pos hr, roundHalfEven_whole one_pos]

/-- **A fraction that is a double is not rounded.** -/
theorem nearestBits_eq : nearestBits f.1 f.2 =
    min (mantissa + (exponent - leastExponent).toNat * 2 ^ 52) infinityBits := by
  rw [Binary64.nearestBits_eq h.num_pos.ne', h.lastPlace_eq, h.roundAt_eq]

end Exact

/-! ### Doubles round to themselves -/

theorem fraction_pos (mantissa : Nat) (exponent : Int) : 0 < (fraction mantissa exponent).2 :=
  overPower_pos two_pos one_pos mantissa (-exponent)

theorem ratio_fraction (mantissa : Nat) (exponent : Int) :
    ratio (fraction mantissa exponent) = mantissa * (2 : ℚ) ^ exponent := by
  rw [fraction, ratio_overPower two_pos, zpow_neg]
  push_cast
  rw [div_inv_eq_mul, div_one]

theorem infinityBits_eq : infinityBits = 2047 * 2 ^ 52 := rfl

theorem ofBits_eq (bits : Nat) : ofBits bits =
    if bits / 2 ^ 52 % 2 ^ 11 = 2047 then
      if bits % 2 ^ 52 = 0 then .infinite (decide (2 ^ 63 ≤ bits)) else .notANumber
    else if bits / 2 ^ 52 % 2 ^ 11 = 0 then
      .finite (decide (2 ^ 63 ≤ bits)) (bits % 2 ^ 52) leastExponent
    else .finite (decide (2 ^ 63 ≤ bits)) (bits % 2 ^ 52 + 2 ^ 52)
      ((bits / 2 ^ 52 % 2 ^ 11 : Nat) + leastExponent - 1) := rfl

/-- The bits of a finite double are its sign and its value rounded. -/
theorem nearestBits_ofBits {bits mantissa : Nat} {negative : Bool} {exponent : Int}
    (h : ofBits bits = .finite negative mantissa exponent) :
    nearestBits (fraction mantissa exponent).1 (fraction mantissa exponent).2 = bits % 2 ^ 63 ∧
      negative = decide (2 ^ 63 ≤ bits) := by
  have hparts : bits % 2 ^ 63 = bits % 2 ^ 52 + bits / 2 ^ 52 % 2 ^ 11 * 2 ^ 52 := by omega
  have hfield : bits / 2 ^ 52 % 2 ^ 11 < 2 ^ 11 := Nat.mod_lt _ (by decide)
  rw [ofBits_eq] at h
  split at h
  · split at h <;> cases h
  · next hinf =>
    split at h
    · next hsub =>
      cases h
      refine ⟨?_, rfl⟩
      rw [hparts, hsub, Nat.zero_mul, Nat.add_zero]
      by_cases hzero : bits % 2 ^ 52 = 0
      · have hnum : (fraction (bits % 2 ^ 52) leastExponent).1 = 0 := by rw [hzero]; rfl
        rw [hnum, nearestBits_zero, hzero]
      · have hexact : Exact (fraction (bits % 2 ^ 52) leastExponent) (bits % 2 ^ 52) leastExponent :=
          ⟨fraction_pos _ _, ratio_fraction _ _, by omega, by omega, le_rfl, .inl rfl⟩
        rw [hexact.nearestBits_eq, Int.sub_self, Int.toNat_zero, Nat.zero_mul, Nat.add_zero,
          infinityBits_eq, min_eq_left (by omega)]
    · next hsub =>
      cases h
      refine ⟨?_, rfl⟩
      have hexact : Exact (fraction (bits % 2 ^ 52 + 2 ^ 52)
          ((bits / 2 ^ 52 % 2 ^ 11 : Nat) + leastExponent - 1)) (bits % 2 ^ 52 + 2 ^ 52)
          ((bits / 2 ^ 52 % 2 ^ 11 : Nat) + leastExponent - 1) :=
        ⟨fraction_pos _ _, ratio_fraction _ _, by omega, by omega, by omega, .inr (by omega)⟩
      have hplaces : (((bits / 2 ^ 52 % 2 ^ 11 : Nat) : Int) + leastExponent - 1 - leastExponent).toNat =
          bits / 2 ^ 52 % 2 ^ 11 - 1 := by omega
      rw [hexact.nearestBits_eq, hplaces, hparts, infinityBits_eq, min_eq_left (by omega)]
      omega

/-- **A finite double is its sign and the double nearest to its value.** -/
theorem assemble_nearestBits {x : Float} {negative : Bool} {mantissa : Nat} {exponent : Int}
    (h : ofFloat x = .finite negative mantissa exponent) :
    assemble negative
      (nearestBits (fraction mantissa exponent).1 (fraction mantissa exponent).2) = x := by
  have hlt : x.toBits.toNat < 2 ^ 64 := x.toBits.toNat_lt
  obtain ⟨hbits, hneg⟩ := nearestBits_ofBits h
  have hval : (if negative then x.toBits.toNat % 2 ^ 63 + 2 ^ 63 else x.toBits.toNat % 2 ^ 63) =
      x.toBits.toNat := by
    by_cases hle : 2 ^ 63 ≤ x.toBits.toNat
    · rw [hneg, decide_eq_true hle, if_pos rfl]; omega
    · rw [hneg, decide_eq_false hle, if_neg Bool.false_ne_true]; omega
  have hassemble : assemble negative (x.toBits.toNat % 2 ^ 63) = Float.ofBits (UInt64.ofNat
      (if negative then x.toBits.toNat % 2 ^ 63 + 2 ^ 63 else x.toBits.toNat % 2 ^ 63)) := rfl
  rw [hbits, hassemble, hval, UInt64.ofNat_toNat, Float.ofBits_toBits]

/-! ### Finite doubles -/

open Float.Model.UnpackedFloat in
theorem isFinite_unpack (b : BitVec 64) : (unpack .binary64 b).isFinite = true ↔
    @unpackExponent .binary64 b ≠ -1#_ := by
  rw [unpack]
  split
  · next h => split <;> exact iff_of_false Bool.false_ne_true fun hn => hn h
  · next h =>
    split
    · split <;> exact iff_of_true rfl h
    · exact iff_of_true rfl h

open Float.Model.UnpackedFloat in
theorem toNat_unpackExponent (b : BitVec 64) :
    (@unpackExponent .binary64 b).toNat = b.toNat / 2 ^ 52 % 2 ^ 11 := by
  rw [unpackExponent_def, BitVec.extractLsb'_toNat, Nat.shiftRight_eq_div_pow]

/-- A double is finite if and only if its bits are read as a finite one. -/
theorem isFinite_iff (x : Float) :
    x.isFinite = true ↔ ∃ negative mantissa exponent, ofFloat x = .finite negative mantissa exponent := by
  have h : x.isFinite = true ↔ x.toBits.toNat / 2 ^ 52 % 2 ^ 11 ≠ 2047 := by
    rw [show x.toBits.toNat = x.toBits.toBitVec.toNat from rfl, ← toNat_unpackExponent]
    refine (isFinite_unpack x.toBits.toBitVec).trans (not_congr ⟨fun h => ?_, fun h => ?_⟩)
    · rw [h]; rfl
    · exact BitVec.eq_of_toNat_eq h
  rw [h, ofFloat, ofBits_eq]
  split
  · next hf => split <;> exact iff_of_false (fun hne => hne hf) (by rintro ⟨_, _, _, ⟨⟩⟩)
  · next hf => split <;> exact iff_of_true hf ⟨_, _, _, rfl⟩

end MusicLisp.Binary64
