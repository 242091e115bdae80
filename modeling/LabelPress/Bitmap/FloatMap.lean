import LabelPress.Bitmap.Portable

/-!
# Portable float maps

A grey picture whose samples are binary fractions of four bytes, the lowest row first. A scale in
the header says by its sign which byte of a sample comes first.
-/

namespace LabelPress.Bitmap.FloatMap

open LabelPress.Number LabelPress.Bitmap.Portable

/-- The word that files start with. -/
def word : List UInt8 := [plainByte 'P', plainByte 'f']

/-- The number that a token spells. -/
def numberOf (token : List UInt8) : Except Flaw Binary64 :=
  match (textOf? token).bind floatOfText? with
  | some x => .ok x
  | none => .error (.noNumber token)

/-- Whether a scale is negative, which no zero, infinity or NaN may be. -/
def isNegative : Binary64 → Except Flaw Bool
  | .finite negative significand _ =>
    if significand = 0 then .error .noScale else .ok negative
  | _ => .error .noScale

/-- The level of a sample: its whole part, cut off at both ends of a byte. The bits of a sample are
a sign, eight of an exponent and 23 of a significand. -/
def level (bits : Nat) : UInt8 :=
  let exponent := bits / Nat.pow 2 23 % 256
  let fraction := bits % Nat.pow 2 23
  if bits.testBit 31 then 0
  else if exponent < 127 then 0
  else if exponent < 135 then .ofNat ((Nat.pow 2 23 + fraction) / Nat.pow 2 (150 - exponent))
  else if exponent = 255 ∧ fraction ≠ 0 then 0
  else 255

/-- The number of four bytes, the first one the highest. -/
def bitsOf (a b c d : UInt8) : Nat :=
  ((a.toNat * 256 + b.toNat) * 256 + c.toNat) * 256 + d.toNat

/-- The levels of samples, of which the first byte is the lowest or the highest. -/
def levels (lowestFirst : Bool) : List UInt8 → List UInt8
  | a :: b :: c :: d :: rest =>
    level (if lowestFirst then bitsOf d c b a else bitsOf a b c d) :: levels lowestFirst rest
  | _ => []

/-- The picture of levels, the lowest row first. -/
def picture (extent : Extent) (levels : Array UInt8) : Picture :=
  .grey (.ofFn extent fun p =>
    levels.getD ((extent.height - 1 - p / extent.width) * extent.width + p % extent.width) 0) none

/-- A width, a height, whether the lowest byte of a sample comes first, and the samples. -/
def header (bytes : List UInt8) : Except Flaw (Int × Int × Bool × List UInt8) := do
  let (width, rest) ← headerInteger bytes
  let (height, rest) ← headerInteger rest
  let (scale, rest) ← headerToken rest
  return (width, height, ← isNegative (← numberOf scale), rest)

/-- The picture of a file, if its word is the one of this format. -/
def read? (bytes : List UInt8) : Option (Except Unread Picture) :=
  let (start, rest) := wordFrom 6 bytes
  if start = word then
    some (match header rest with
    | .error flaw => .error (.flawed flaw)
    | .ok (width, height, lowestFirst, samples) =>
      (extentOf width height).bind fun extent =>
        let levels := levels lowestFirst samples
        if levels.length < extent.area then .error .unknown
        else .ok (picture extent levels.toArray))
  else none

end LabelPress.Bitmap.FloatMap
