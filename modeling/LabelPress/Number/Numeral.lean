import LabelPress.Fault
import LabelPress.Text.Digit

/-!
# Decimal numerals

A numeral is a run of decimal digits of any script. It may be read, and an integer may be written,
only up to a limit of digits.
-/

namespace LabelPress.Number

/-- The number that a list of digit values spells, the highest digit first. -/
def ofDigits (digits : List Nat) : Nat := digits.foldl (fun n d => 10 * n + d) 0

/-- The number that a run of digits spells, a character that is no digit counting as zero. -/
def numeralValue (cs : List Char) : Nat :=
  ofDigits (cs.map fun c => (Text.digitValue? c).getD 0)

/-- The number that a run of digits spells, if it is not too long. -/
def readNumeral (cs : List Char) : Except Fault Int :=
  if Fault.digitLimit < cs.length then .error (.numeralTooLong cs.length)
  else .ok (numeralValue cs)

/-- Whether an integer has no more digits than may be written. -/
def isWritable (n : Int) : Bool := n.natAbs < Nat.pow 10 Fault.digitLimit

/-- The decimal digits of an integer, after a minus sign if it is negative. -/
def integerText (n : Int) : String :=
  if n < 0 then "-" ++ n.natAbs.repr else n.natAbs.repr

/-- The text of an integer, if that is not too long. -/
def writeInteger (n : Int) : Except Fault String :=
  if isWritable n then .ok (integerText n) else .error .integerTooLong

theorem ofDigits_append (xs : List Nat) (d : Nat) :
    ofDigits (xs ++ [d]) = 10 * ofDigits xs + d := by
  simp [ofDigits]

end LabelPress.Number
