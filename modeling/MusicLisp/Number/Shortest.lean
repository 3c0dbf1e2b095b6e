import MusicLisp.Number.Decimal

/-!
# Shortest decimals

The decimal that stands for a double: of those whose nearest double it is, one with the fewest digits,
and of these the nearest, the larger of two equally near ones.

On the grid of the decimals with `n` significant digits only the two neighbours of the value need to be
tried: where any point of the grid reads back, one of these does. Each candidate is tried by reading it
back, so the choice is right by construction, and the exact expansion is there if no grid has a hit.
-/

namespace MusicLisp

namespace Decimal

/-- The same number without zeros at the end of its digits. -/
def strip (digits : Nat) (exponent : Int) : Decimal :=
  if h : digits ≠ 0 ∧ digits % 10 = 0 then strip (digits / 10) (exponent + 1) else ⟨digits, exponent⟩
termination_by digits
decreasing_by omega

/-- The greatest `e` with `10 ^ e ≤ num / den`, for a positive fraction in the range of doubles: the
binary logarithm gives it or the number before it. -/
def floorLog10 (num den : Nat) : Int :=
  let guess := Binary64.floorLog2 num den * 30103 / 100000
  let scaled := Binary64.overPower 10 num den (guess + 1)
  if scaled.2 ≤ scaled.1 then guess + 1 else guess

/-- Of the two neighbours of `num / den` on the grid of `10 ^ place`, the one to take: it reads back as
`bits`, and it is the nearer if both do. -/
def onGrid? (bits num den : Nat) (place : Int) : Option Decimal :=
  let scaled := Binary64.overPower 10 num den place
  let low := scaled.1 / scaled.2
  let lowNearer := 2 * (scaled.1 % scaled.2) < scaled.2
  match decide ((⟨low, place⟩ : Decimal).bits = bits),
      decide ((⟨low + 1, place⟩ : Decimal).bits = bits) with
  | true, false => some ⟨low, place⟩
  | false, true => some ⟨low + 1, place⟩
  | true, true => some (if lowNearer then ⟨low, place⟩ else ⟨low + 1, place⟩)
  | false, false => none

/-- The whole expansion of `mantissa * 2 ^ exponent`. -/
def exact (mantissa : Nat) (exponent : Int) : Decimal :=
  match exponent with
  | .ofNat n => ⟨mantissa * Nat.pow 2 n, 0⟩
  | .negSucc n => ⟨mantissa * Nat.pow 5 (n + 1), .negSucc n⟩

/-- **The shortest decimal** of the double `mantissa * 2 ^ exponent`. -/
def shortest (mantissa : Nat) (exponent : Int) : Decimal :=
  if mantissa = 0 then ⟨0, 0⟩ else
    let (num, den) := Binary64.fraction mantissa exponent
    let bits := Binary64.nearestBits num den
    let lead := floorLog10 num den
    let found := (List.range 17).findSome? fun (n : Nat) => onGrid? bits num den (lead - n)
    let d := found.getD (exact mantissa exponent)
    strip d.digits d.exponent

end Decimal

end MusicLisp
