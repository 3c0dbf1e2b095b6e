import Mathlib.Order.Defs.Unbundled

/-!
# Equality of doubles

Doubles are compared by what they say: a `NaN` is equal to nothing, and a zero to a zero of either sign.

* `beq_iff`: two doubles are equal exactly if the first is no `NaN` and they are one but for the sign of a zero.
* `beq_symm`, `beq_trans`, `beq_self_iff`: so equality is symmetric and transitive, and **fails of a double and itself
  only for a `NaN`**.
-/

namespace MusicLisp.Double

open Float.Model

/-- A double without the sign of a zero. -/
def unsignedZero : UnpackedFloat → UnpackedFloat
  | .zero _ => .zero .positive
  | x => x

theorem compare_sign_eq_iff (s s' : UnpackedFloat.Sign) : compare s s' = .eq ↔ s = s' := by
  cases s with
  | positive =>
    cases s' with
    | positive => exact iff_of_true rfl rfl
    | negative => exact iff_of_false nofun nofun
  | negative =>
    cases s' with
    | positive => exact iff_of_false nofun nofun
    | negative => exact iff_of_true rfl rfl

/-- Finite doubles of one sign are compared by their exponents and then by their mantissas. -/
theorem compare_then_eq_iff (m m' : Nat) (e e' : Int) :
    (compare e e').then (compare m m') = .eq ↔ m = m' ∧ e = e' := by
  simp [Ordering.then_eq_eq, and_comm]

theorem unpacked_beq_iff (x y : UnpackedFloat) :
    x.beq y = true ↔ x.isNaN = false ∧ unsignedZero x = unsignedZero y := by
  cases x with
  | notANumber => exact iff_of_false nofun nofun
  | infinity s =>
    cases y with
    | infinity s' =>
      refine beq_iff_eq.trans ((Option.some_inj.trans (compare_sign_eq_iff s s')).trans ?_)
      exact ⟨fun h => ⟨rfl, congrArg UnpackedFloat.infinity h⟩, fun h => UnpackedFloat.infinity.inj h.2⟩
    | notANumber | zero | finite => cases s <;> exact iff_of_false nofun nofun
  | zero s =>
    cases y with
    | infinity s' | finite s' => cases s' <;> exact iff_of_false nofun nofun
    | notANumber => exact iff_of_false nofun nofun
    | zero => exact iff_of_true rfl ⟨rfl, rfl⟩
  | finite s m e hm =>
    cases y with
    | infinity s' => cases s' <;> exact iff_of_false nofun nofun
    | notANumber | zero => cases s <;> exact iff_of_false nofun nofun
    | finite s' m' e' hm' =>
      refine beq_iff_eq.trans ?_
      have hinj : unsignedZero (.finite s m e hm) = unsignedZero (.finite s' m' e' hm') ↔
          s = s' ∧ m = m' ∧ e = e' := iff_of_eq (UnpackedFloat.finite.injEq ..)
      rw [hinj, ← compare_then_eq_iff m m' e e']
      cases s with
      | positive =>
        cases s' with
        | positive => exact Option.some_inj.trans ⟨fun h => ⟨rfl, rfl, h⟩, fun h => h.2.2⟩
        | negative => exact iff_of_false nofun nofun
      | negative =>
        cases s' with
        | positive => exact iff_of_false nofun nofun
        | negative =>
          -- below zero the order is turned around
          exact (Option.some_inj.trans Ordering.swap_eq_eq).trans ⟨fun h => ⟨rfl, rfl, h⟩, fun h => h.2.2⟩

variable {x y z : Float}

/-- **Doubles are equal** if the first is no `NaN` and they are one but for the sign of a zero. -/
theorem beq_iff : (x == y) = true ↔
    x.isNaN = false ∧ unsignedZero x.toModel.unpack = unsignedZero y.toModel.unpack :=
  unpacked_beq_iff x.toModel.unpack y.toModel.unpack

theorem isNaN_unsignedZero (x : UnpackedFloat) : (unsignedZero x).isNaN = x.isNaN := by
  cases x <;> rfl

/-- Of equal doubles neither is a `NaN`. -/
theorem isNaN_of_beq (h : (x == y) = true) : y.isNaN = false := by
  obtain ⟨hx, hxy⟩ := beq_iff.mp h
  calc y.isNaN = (unsignedZero y.toModel.unpack).isNaN := (isNaN_unsignedZero _).symm
    _ = (unsignedZero x.toModel.unpack).isNaN := by rw [hxy]
    _ = x.isNaN := isNaN_unsignedZero _
    _ = false := hx

theorem beq_symm (h : (x == y) = true) : (y == x) = true :=
  beq_iff.mpr ⟨isNaN_of_beq h, (beq_iff.mp h).2.symm⟩

theorem beq_trans (h : (x == y) = true) (h' : (y == z) = true) : (x == z) = true :=
  beq_iff.mpr ⟨(beq_iff.mp h).1, (beq_iff.mp h).2.trans (beq_iff.mp h').2⟩

/-- **Only a `NaN` is not equal to itself.** -/
theorem beq_self_iff : (x == x) = true ↔ x.isNaN = false := by
  rw [beq_iff]
  exact and_iff_left rfl

end MusicLisp.Double
