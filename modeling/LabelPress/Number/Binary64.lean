import LabelPress.Fault
import LabelPress.Number.Rounding

/-!
# Binary floating-point numbers

Numbers with a sign, a significand of 53 bits and a binary exponent. Every operation computes the
exact rational result and rounds it once, to the nearest representable number and on a tie to the
even significand, so the whole arithmetic rests on `ofRatio`.
-/

namespace LabelPress.Number

/-- A binary floating-point number. A finite one has the value `± significand * 2 ^ exponent`,
with the significand below `2 ^ 53` and the exponent from -1074 to 971. -/
inductive Binary64
  | nan
  | infinite (negative : Bool)
  | finite (negative : Bool) (significand : Nat) (exponent : Int)
deriving DecidableEq, Repr

namespace Binary64

/-- The least binary exponent. -/
def minExponent : Int := -1074

/-- The greatest binary exponent. -/
def maxExponent : Int := 971

/-- The zero of a sign. -/
def zero (negative : Bool) : Binary64 := finite negative 0 minExponent

/-- The whole part of the binary logarithm of the positive quotient `num / den`. -/
def log2Ratio (num den : Nat) : Int :=
  let l : Int := num.log2 - den.log2
  if num * Nat.pow 2 (-l).toNat < den * Nat.pow 2 l.toNat then l - 1 else l

/-- The number nearest to `± num / den`, infinite when that lies beyond the finite ones. -/
def ofRatio (negative : Bool) (num den : Nat) : Binary64 :=
  if num = 0 then zero negative
  else
    let e := max (log2Ratio num den - 52) minExponent
    let q := roundEven (num * Nat.pow 2 (-e).toNat) (den * Nat.pow 2 e.toNat)
    let (m, e) := if q = Nat.pow 2 53 then (Nat.pow 2 52, e + 1) else (q, e)
    if maxExponent < e then infinite negative else finite negative m e

/-- The number nearest to the signed quotient `num / den`. -/
def ofSigned (num : Int) (den : Nat) : Binary64 := ofRatio (decide (num < 0)) num.natAbs den

/-- The number nearest to an integer, unless that is infinite. -/
def ofInt (n : Int) : Except Fault Binary64 :=
  match ofSigned n 1 with
  | infinite _ => .error .integerBeyondFloat
  | x => .ok x

/-- The numerator of a finite significand and exponent over `denominator`. -/
def numerator (significand : Nat) (exponent : Int) : Nat :=
  significand * Nat.pow 2 exponent.toNat

/-- The power of two under the numerator. -/
def denominator (exponent : Int) : Nat := Nat.pow 2 (-exponent).toNat

/-- The product. -/
def mul : Binary64 → Binary64 → Binary64
  | nan, _ => nan
  | _, nan => nan
  | infinite s, infinite t => infinite (s != t)
  | infinite s, finite t m _ => if m = 0 then nan else infinite (s != t)
  | finite s m _, infinite t => if m = 0 then nan else infinite (s != t)
  | finite s m e, finite t n f =>
    ofRatio (s != t) (numerator m e * numerator n f) (denominator e * denominator f)

/-- The sum. A sum that is exactly zero is negative only if both terms are. -/
def add : Binary64 → Binary64 → Binary64
  | nan, _ => nan
  | _, nan => nan
  | infinite s, infinite t => if s = t then infinite s else nan
  | infinite s, finite .. => infinite s
  | finite .., infinite t => infinite t
  | finite s m e, finite t n f =>
    let left : Int := if s then -numerator m e else numerator m e
    let right : Int := if t then -numerator n f else numerator n f
    let sum := left * denominator f + right * denominator e
    if sum = 0 then zero (s && t) else ofSigned sum (denominator e * denominator f)

/-- The quotient. -/
def div : Binary64 → Binary64 → Binary64
  | nan, _ => nan
  | _, nan => nan
  | infinite _, infinite _ => nan
  | infinite s, finite t _ _ => infinite (s != t)
  | finite s _ _, infinite t => zero (s != t)
  | finite s m e, finite t n f =>
    if n = 0 then (if m = 0 then nan else infinite (s != t))
    else ofRatio (s != t) (numerator m e * denominator f) (denominator e * numerator n f)

/-- An integer taken from a number by rounding its magnitude, which no infinity and no NaN has. -/
def toIntBy (round : (negative : Bool) → (num den : Nat) → Nat) : Binary64 → Except Fault Int
  | nan => .error .nanToInteger
  | infinite _ => .error .infinityToInteger
  | finite s m e =>
    let magnitude : Int := round s (numerator m e) (denominator e)
    .ok (if s then -magnitude else magnitude)

/-- The integer next to the number on the side of zero. -/
def truncate : Binary64 → Except Fault Int := toIntBy fun _ num den => num / den

/-- The greatest integer that is not above the number. -/
def floor : Binary64 → Except Fault Int :=
  toIntBy fun negative num den => if negative then (num + den - 1) / den else num / den

/-- The nearest integer, a tie going to the even one. -/
def nearest : Binary64 → Except Fault Int := toIntBy fun _ num den => roundEven num den

end Binary64

end LabelPress.Number
