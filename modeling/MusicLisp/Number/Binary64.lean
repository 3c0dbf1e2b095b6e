/-!
# Doubles

What the bits of a double say, and the double nearest to a fraction.

A finite double is `± mantissa * 2 ^ exponent`. Among the doubles with a positive sign the order of
the bit patterns is the order of the values, so rounding is arithmetic on natural numbers: a fraction
is divided by the power of two of its last binary place, the quotient is rounded to nearest with a
half going to the even neighbour, and the place is added above the mantissa. A carry out of the
mantissa then lands in the exponent by itself.
-/

namespace MusicLisp

/-- What the bits of a double say. -/
inductive Binary64 where
  | notANumber
  | infinite (negative : Bool)
  | finite (negative : Bool) (mantissa : Nat) (exponent : Int)
deriving DecidableEq, Repr

namespace Binary64

/-- The exponent of the last binary place of the smallest doubles. -/
def leastExponent : Int := -1074

/-- The bits of positive infinity: those of the finite doubles lie below. -/
def infinityBits : Nat := 2047 * Nat.pow 2 52

/-- Reads sign, exponent and mantissa off the bits. -/
def ofBits (bits : Nat) : Binary64 :=
  let negative := Nat.pow 2 63 ≤ bits
  let field : Nat := bits / Nat.pow 2 52 % Nat.pow 2 11
  let fraction : Nat := bits % Nat.pow 2 52
  if field = 2047 then
    if fraction = 0 then .infinite negative else .notANumber
  else if field = 0 then .finite negative fraction leastExponent
  else .finite negative (fraction + Nat.pow 2 52) (field + leastExponent - 1)

/-- What a double says. -/
def ofFloat (x : Float) : Binary64 := ofBits x.toBits.toNat

/-- The quotient to the nearest whole number, a half going to the even neighbour. -/
def roundHalfEven (num den : Nat) : Nat :=
  let quotient := num / den
  let twice := 2 * (num % den)
  if den < twice ∨ (den = twice ∧ quotient % 2 = 1) then quotient + 1 else quotient

/-- The fraction `num / den` over `base ^ place`, again as a fraction. -/
def overPower (base num den : Nat) (place : Int) : Nat × Nat :=
  match place with
  | .ofNat n => (num, den * Nat.pow base n)
  | .negSucc n => (num * Nat.pow base (n + 1), den)

/-- The greatest `e` with `2 ^ e ≤ num / den`, for a positive fraction. -/
def floorLog2 (num den : Nat) : Int :=
  let guess : Int := num.log2 - den.log2
  let scaled := overPower 2 num den guess
  if scaled.1 < scaled.2 then guess - 1 else guess

/-- The bits of the double nearest to `num / den`; infinity where the nearest would be too large. -/
def nearestBits (num den : Nat) : Nat :=
  if num = 0 then 0 else
    let place := max (floorLog2 num den - 52) leastExponent
    let scaled := overPower 2 num den place
    min (roundHalfEven scaled.1 scaled.2 + (place - leastExponent).toNat * Nat.pow 2 52) infinityBits

/-- The double with the given magnitude bits and sign. -/
def assemble (negative : Bool) (magnitude : Nat) : Float :=
  Float.ofBits (UInt64.ofNat (if negative then magnitude + Nat.pow 2 63 else magnitude))

/-- The magnitude of a finite double as a fraction. -/
def fraction (mantissa : Nat) (exponent : Int) : Nat × Nat :=
  overPower 2 mantissa 1 (-exponent)

/-- The value of a double that is a whole number. -/
def whole? (x : Float) : Option Int :=
  match ofFloat x with
  | .finite negative mantissa exponent =>
    let (num, den) := fraction mantissa exponent
    if num % den = 0 then some (if negative then -(num / den : Nat) else (num / den : Nat)) else none
  | _ => none

/-- The double nearest to a whole number. -/
def ofInt (n : Int) : Float := assemble (decide (n < 0)) (nearestBits n.natAbs 1)

end Binary64

end MusicLisp
