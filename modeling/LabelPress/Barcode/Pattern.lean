/-!
# Code 128 patterns

A character of code set B is drawn as eleven modules, dark or light. The characters from the space
to the capital Z have patterns; others have none.
-/

namespace LabelPress.Barcode

/-- Modules from left to right, a dark one being true. -/
abbrev Pattern := List Bool

namespace Pattern

/-- The binary digits of a number as modules, as many as asked for, the highest first. -/
def ofNat (width n : Nat) : Pattern := (List.range width).map fun i => n.testBit (width - 1 - i)

@[simp] theorem length_ofNat (width n : Nat) : (ofNat width n).length = width := by simp [ofNat]

/-- The modules as binary digits. -/
def text (p : Pattern) : String := String.ofList (p.map fun dark => if dark then '1' else '0')

/-- The modules before the payload. -/
def start : Pattern := ofNat 11 0b11010010000

/-- The modules after the payload. -/
def stop : Pattern := ofNat 13 0b1100011101011

/-- The patterns of the characters from the space on. -/
def table : List Nat :=
  [0b11011001100, 0b11001101100, 0b11001100110, 0b10010011000, 0b10010001100, 0b10001001100,
   0b10011001000, 0b10011000100, 0b10001100100, 0b11001001000, 0b11001000100, 0b11000100100,
   0b10110011100, 0b10011011100, 0b10011001110, 0b10111001100, 0b10011101100, 0b10011100110,
   0b11001110010, 0b11001011100, 0b11001001110, 0b11011100100, 0b11001110100, 0b11101101110,
   0b11101001100, 0b11100101100, 0b11100100110, 0b11101100100, 0b11100110100, 0b11100110010,
   0b11011011000, 0b11011000110, 0b11000110110, 0b10100011000, 0b10001011000, 0b10001000110,
   0b10110001000, 0b10001101000, 0b10001100010, 0b11010001000, 0b11000101000, 0b11000100010,
   0b10110111000, 0b10110001110, 0b10001101110, 0b10111011000, 0b10111000110, 0b10001110110,
   0b11101110110, 0b11010001110, 0b11000101110, 0b11011101000, 0b11011100010, 0b11011101110,
   0b11101011000, 0b11101000110, 0b11100010110, 0b11101101000, 0b11101100010]

/-- The code point of the first character of the table. -/
def first : Nat := 32

/-- The pattern of a character. -/
def ofChar? (c : Char) : Option Pattern :=
  if first ≤ c.toNat then (table[c.toNat - first]?).map (ofNat 11) else none

/-- The patterns of the table in order. -/
def all : List Pattern := table.map (ofNat 11)

end Pattern

end LabelPress.Barcode
