import LabelPress.Number.Binary64
import LabelPress.Number.Numeral
import LabelPress.Text.Blank

/-!
# Numbers from texts

The texts that settings may give for a number: blanks around it, a sign, digits of any script with
single low lines between them, and for a fractional number a point, an exponent, or the words for
an infinity and a NaN.
-/

namespace LabelPress.Number

/-- The blanks that a plain text may have around a number. -/
def isPlainBlank (c : Char) : Bool := c = ' ' || ('\t' ≤ c && c ≤ '\r')

/-- The plain form of a character: a digit of any script is a plain digit, and a blank beyond the
plain characters is a space. Of the others beyond them none may stand in a number, so each becomes a
question mark. -/
def plainChar (c : Char) : Char :=
  if c.toNat < 0x80 then c
  else if Text.isBlank c then ' '
  else (Text.digitValue? c).elim '?' fun v => Char.ofNat (0x30 + v)

/-- The text in plain characters. -/
def plainForm (cs : List Char) : List Char := cs.map plainChar

/-- Whether the text starts with a plain digit. -/
def startsWithDigit : List Char → Bool
  | c :: _ => c.isDigit
  | [] => false

/-- The text without its low lines, each of which must stand between two digits. `afterDigit` says
whether a digit came just before. -/
def joinDigits? (afterDigit : Bool) : List Char → Option (List Char)
  | [] => some []
  | c :: rest =>
    if c = '_' then
      if afterDigit && startsWithDigit rest then joinDigits? false rest else none
    else (joinDigits? c.isDigit rest).map (c :: ·)

/-- A sign and what follows it. -/
def splitSign : List Char → Bool × List Char
  | '-' :: rest => (true, rest)
  | '+' :: rest => (false, rest)
  | cs => (false, cs)

/-- The integer that a text spells. -/
def integerOfText? (s : String) : Option Int := do
  let cs := Text.trimWhile isPlainBlank (plainForm s.toList)
  let (negative, digits) := splitSign cs
  let digits ← joinDigits? false digits
  if digits.isEmpty || !digits.all Char.isDigit then none
  else match readNumeral digits with
    | .ok n => some (if negative then -n else n)
    | .error _ => none

/-- The number nearest to `± digits * 10 ^ exponent`. Far outside the range of the finite numbers
the power of ten is not formed. -/
def Binary64.ofDecimal (negative : Bool) (digits : Nat) (exponent : Int) : Binary64 :=
  let place := digits.repr.length + exponent
  if digits = 0 ∨ place < -400 then zero negative
  else if 400 < place then infinite negative
  else ofRatio negative (digits * Nat.pow 10 exponent.toNat) (Nat.pow 10 (-exponent).toNat)

/-- The exponent after a mantissa: nothing, or an `e` with a signed run of digits to the end. -/
def exponent? : List Char → Option Int
  | [] => some 0
  | c :: rest =>
    if c = 'e' ∨ c = 'E' then
      let (negative, digits) := splitSign rest
      if digits.isEmpty || !digits.all Char.isDigit then none
      else some (if negative then -(numeralValue digits : Int) else numeralValue digits)
    else none

/-- The number that an unsigned text of digits, point and exponent spells. -/
def unsignedFloat? (negative : Bool) (cs : List Char) : Option Binary64 := do
  let whole := cs.takeWhile Char.isDigit
  let rest := cs.dropWhile Char.isDigit
  let (places, rest) := match rest with
    | '.' :: after => (after.takeWhile Char.isDigit, after.dropWhile Char.isDigit)
    | _ => ([], rest)
  if whole.isEmpty && places.isEmpty then none
  else
    let exponent ← exponent? rest
    return .ofDecimal negative (numeralValue (whole ++ places)) (exponent - places.length)

/-- The number that a text spells. -/
def floatOfText? (s : String) : Option Binary64 := do
  let cs ← joinDigits? false (Text.trimWhile isPlainBlank (plainForm s.toList))
  let (negative, cs) := splitSign cs
  let word := String.ofList (cs.map Char.toLower)
  if word = "inf" ∨ word = "infinity" then some (.infinite negative)
  else if word = "nan" then some .nan
  else unsignedFloat? negative cs

end LabelPress.Number
