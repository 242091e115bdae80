import LabelPress.Number.Binary64
import LabelPress.Number.Numeral

/-!
# The shortest decimal of a binary number

Of all decimals that round to the given number the one with the fewest digits, and of those the
nearest, is its text. The rounding interval and the decimal grids are compared exactly.
-/

namespace LabelPress.Number

/-- A decimal `digits * 10 ^ exponent`. -/
structure Decimal where
  digits : Nat
  exponent : Int
deriving DecidableEq, Repr

namespace Decimal

/-- The least exponent `k` with `num / den < 10 ^ k`, for a positive quotient. -/
def magnitude (num den : Nat) : Int :=
  if den ≤ num then (num / den).repr.length
  else 1 - ((den - 1) / num).repr.length

/-- The rounding interval of a positive number as multiples of a common unit `num / den`: its
lower end, the number, its upper end, and whether the ends belong to it. -/
structure Interval where
  lower : Nat
  middle : Nat
  upper : Nat
  closed : Bool
  num : Nat
  den : Nat

/-- The interval of the reals that round to `significand * 2 ^ exponent`. Below a power of two the
numbers lie twice as close as above it. -/
def Interval.of (significand : Nat) (exponent : Int) : Interval where
  lower := 4 * significand -
    (if significand = Nat.pow 2 52 ∧ Binary64.minExponent < exponent then 1 else 2)
  middle := 4 * significand
  upper := 4 * significand + 2
  closed := significand % 2 == 0
  num := Nat.pow 2 (exponent - 2).toNat
  den := Nat.pow 2 (2 - exponent).toNat

/-- Whether `digits * 10 ^ exponent` lies in the interval. -/
def Interval.holds (i : Interval) (digits : Nat) (exponent : Int) : Bool :=
  let point := digits * Nat.pow 10 exponent.toNat * i.den
  let unit := i.num * Nat.pow 10 (-exponent).toNat
  if i.closed then i.lower * unit ≤ point && point ≤ i.upper * unit
  else i.lower * unit < point && point < i.upper * unit

/-- The point of the grid of multiples of `10 ^ exponent` that lies in the interval: of two the
nearer one, and on a tie the even one. -/
def Interval.onGrid? (i : Interval) (exponent : Int) : Option Decimal :=
  let num := i.middle * i.num * Nat.pow 10 (-exponent).toNat
  let den := i.den * Nat.pow 10 exponent.toNat
  let below := num / den
  match i.holds below exponent, i.holds (below + 1) exponent with
  | true, true => some ⟨roundEven num den, exponent⟩
  | true, false => some ⟨below, exponent⟩
  | false, true => some ⟨below + 1, exponent⟩
  | false, false => none

/-- The shortest decimal that rounds to a positive `significand * 2 ^ exponent`. Seventeen digits
always suffice. -/
def shortest (significand : Nat) (exponent : Int) : Decimal :=
  let i := Interval.of significand exponent
  let k := magnitude (i.middle * i.num) i.den
  ((List.range 17).findSome? fun (n : Nat) => i.onGrid? (k - (n + 1))).getD ⟨0, 0⟩

/-- How a decimal is laid out. -/
structure Layout where
  /-- The least place of the first digit, counted from the point, of a positional text. -/
  leastPlace : Int
  /-- The greatest place of the first digit of a positional text. -/
  greatestPlace : Int
  /-- The least number of digits of a written exponent. -/
  exponentWidth : Nat

/-- Numbers of settings stand positionally from 0.0001 to below 10^16, otherwise with a signed
exponent of at least two digits. -/
def Layout.settings : Layout := ⟨-3, 16, 2⟩

/-- The text of a positive decimal. -/
def text (layout : Layout) (d : Decimal) : String :=
  let digits := d.digits.repr.toList
  let place := digits.length + d.exponent
  let digits := (digits.reverse.dropWhile (· == '0')).reverse
  if layout.leastPlace ≤ place ∧ place ≤ layout.greatestPlace then
    if place ≤ 0 then String.ofList ("0.".toList ++ List.replicate (-place).toNat '0' ++ digits)
    else
      let whole := digits.take place.toNat
      let whole := whole ++ List.replicate (place.toNat - whole.length) '0'
      let rest := digits.drop place.toNat
      String.ofList (whole ++ '.' :: (if rest.isEmpty then ['0'] else rest))
  else
    let exponent := place - 1
    let width := (List.replicate layout.exponentWidth '0').drop exponent.natAbs.repr.length
    String.ofList (digits.take 1 ++ (if digits.length ≤ 1 then [] else '.' :: digits.drop 1)
      ++ 'e' :: (if exponent < 0 then '-' else '+') :: width ++ exponent.natAbs.repr.toList)

end Decimal

/-- The text of a number: its shortest decimal, or the word for an infinity or a NaN. -/
def Binary64.text : Binary64 → String
  | nan => "nan"
  | infinite negative => if negative then "-inf" else "inf"
  | finite negative m e =>
    (if negative then "-" else "")
      ++ (if m = 0 then "0.0" else (Decimal.shortest m e).text Decimal.Layout.settings)

end LabelPress.Number
