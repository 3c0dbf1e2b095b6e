import MusicLisp.Number.Binary64

/-!
# Decimals

A decimal is `digits * 10 ^ exponent`. Reading a written number takes its digits and its point to a
decimal and from there to the nearest double. A written number is an optional sign, digits with at
most one point among them or at an end, and an optional exponent after `e`; `inf`, `infinity` and
`nan` are read in any case.
-/

namespace MusicLisp

/-- The number `digits * 10 ^ exponent`. -/
structure Decimal where
  digits : Nat
  exponent : Int
deriving DecidableEq, Repr

namespace Decimal

/-- The value as a fraction. -/
def fraction (d : Decimal) : Nat × Nat := Binary64.overPower 10 d.digits 1 (-d.exponent)

/-- The bits of the nearest double. -/
def bits (d : Decimal) : Nat := Binary64.nearestBits d.fraction.1 d.fraction.2

/-- The number of digits of a positive number in base ten. -/
def digitCount (n : Nat) : Nat := (Nat.toDigits 10 n).length

/-- A decimal beyond the range of doubles comes to one just outside it, so that its power of ten
stays small; the nearest double is the same. -/
def clamp (d : Decimal) : Decimal :=
  let place := d.exponent + digitCount d.digits
  if d.digits = 0 ∨ place < -400 then ⟨0, 0⟩
  else if 400 < place then ⟨1, 400⟩
  else d

/-- The number that a run of digits names. -/
def ofDigits (cs : List Char) : Nat := cs.foldl (fun n c => 10 * n + (c.toNat - '0'.toNat)) 0

/-- The exponent after the `e` of a written number: digits with an optional sign. -/
def exponent? (cs : List Char) : Option Int :=
  let (negative, ds) : Bool × List Char := match cs with
    | '-' :: r => (true, r)
    | '+' :: r => (false, r)
    | r => (false, r)
  if ds.isEmpty || !ds.all Char.isDigit then none
  else some (if negative then -(ofDigits ds : Int) else ofDigits ds)

/-- The digits after a point, if there is one, and the rest. -/
def splitPoint : List Char → List Char × List Char
  | '.' :: r => (r.takeWhile Char.isDigit, r.dropWhile Char.isDigit)
  | r => ([], r)

/-- Reads an unsigned number. -/
def ofChars? (cs : List Char) : Option Decimal :=
  let whole := cs.takeWhile Char.isDigit
  let (places, rest) := splitPoint (cs.dropWhile Char.isDigit)
  if whole.isEmpty && places.isEmpty then none else
    let plain : Decimal := ⟨ofDigits (whole ++ places), -(places.length : Int)⟩
    match rest with
    | [] => some plain
    | c :: r =>
      if c = 'e' ∨ c = 'E' then
        (exponent? r).map fun e => clamp ⟨plain.digits, plain.exponent + e⟩
      else none

end Decimal

namespace Binary64

/-- The magnitude bits of an unsigned written number. -/
def magnitude? (cs : List Char) : Option Nat :=
  match String.ofList (cs.map Char.toLower) with
  | "inf" | "infinity" => some infinityBits
  | "nan" => some (infinityBits + Nat.pow 2 51)
  | _ => (Decimal.ofChars? cs).map Decimal.bits

/-- Reads a written number as the nearest double. -/
def read? (cs : List Char) : Option Float :=
  match cs with
  | '-' :: r => (magnitude? r).map (assemble true)
  | '+' :: r => (magnitude? r).map (assemble false)
  | r => (magnitude? r).map (assemble false)

end Binary64

end MusicLisp
