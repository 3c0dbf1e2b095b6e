import MusicLisp.Number.Shortest

/-!
# Number texts

Three texts of a double, all with the digits of its shortest decimal.

* `numberText`: positional however large or small, no point on a whole number, `-0`, `inf`, `NaN`.
* `numberValueText`: the same, but zero of either sign is `0` and the infinities are spelled out.
* `numberLogText`: a whole number keeps `.0`, and outside `10 ^ -4 ≤ x < 10 ^ 16` there is an exponent.
-/

namespace MusicLisp

namespace Decimal

/-- The digits in base ten. -/
def digitChars (d : Decimal) : List Char := Nat.toDigits 10 d.digits

/-- The exponent of the first digit. -/
def lead (d : Decimal) : Int := d.exponent + d.digitChars.length - 1

/-- Digits with a point where it falls, after zeros if it falls before the first digit; no point on a
whole number. -/
def positional (d : Decimal) : List Char :=
  match d.exponent with
  | .ofNat n => d.digitChars ++ List.replicate n '0'
  | .negSucc n =>
    let places := n + 1
    let digits := List.replicate (places + 1 - d.digitChars.length) '0' ++ d.digitChars
    digits.take (digits.length - places) ++ '.' :: digits.drop (digits.length - places)

/-- One digit before the point, the others after it, and the exponent of the first. -/
def scientific (d : Decimal) : List Char :=
  match d.digitChars with
  | [] => []
  | [c] => c :: 'e' :: (toString d.lead).toList
  | c :: cs => c :: '.' :: cs ++ 'e' :: (toString d.lead).toList

/-- Positional with at least one decimal place, or scientific far from one. -/
def general (d : Decimal) : List Char :=
  if d.digits ≠ 0 ∧ (d.lead < -4 ∨ 16 ≤ d.lead) then d.scientific
  else match d.exponent with
    | .ofNat _ => d.positional ++ ['.', '0']
    | .negSucc _ => d.positional

end Decimal

/-- The text of a double, given how a decimal is written. -/
def numberTextWith (write : Decimal → List Char) (x : Float) : String :=
  match Binary64.ofFloat x with
  | .notANumber => "NaN"
  | .infinite negative => if negative then "-inf" else "inf"
  | .finite negative mantissa exponent =>
    let digits := write (Decimal.shortest mantissa exponent)
    String.ofList (if negative then '-' :: digits else digits)

/-- A number as source text, in messages and in errors. -/
def numberText (x : Float) : String := numberTextWith Decimal.positional x

/-- A number as a log field. -/
def numberLogText (x : Float) : String := numberTextWith Decimal.general x

/-- A number as the text of a value. -/
def numberValueText (x : Float) : String :=
  match Binary64.ofFloat x with
  | .infinite negative => if negative then "-Infinity" else "Infinity"
  | .finite _ 0 _ => "0"
  | _ => numberText x

end MusicLisp
