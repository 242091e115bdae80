import LabelPress.Bitmap.Portable

/-!
# X bitmaps

A bitmap of bits in the form of a program text: a definition of the width, one of the height, and
an array of numbers in hexadecimal digits. Each number holds eight bits of a row, the lowest first,
and a bit that is set is white.
-/

namespace LabelPress.Bitmap.XBitmap

open LabelPress.Bitmap.Portable

/-- The bytes of plain characters. -/
def plainBytes (s : String) : List UInt8 := s.toList.map plainByte

/-- Whether a byte is a space or a tab. -/
def isGap (b : UInt8) : Bool := b = plainByte ' ' || b = plainByte '\t'

/-- Whether a byte is a plain digit. -/
def isDigit (b : UInt8) : Bool := plainByte '0' ≤ b && b ≤ plainByte '9'

/-- The bytes after a run of one or more of a class. -/
def afterRun? (p : UInt8 → Bool) : List UInt8 → Option (List UInt8)
  | b :: rest => if p b then some (rest.dropWhile p) else none
  | [] => none

/-- What is left of a line after each of its beginnings, the shortest rest first. -/
def restsOfLine : List UInt8 → List (List UInt8)
  | [] => [[]]
  | b :: rest => if b = plainByte '\n' then [b :: rest] else restsOfLine rest ++ [b :: rest]

/-- The number at the end of a line after a word, and the lines that follow. -/
def numberAfter? (word : List UInt8) (bytes : List UInt8) : Option (Nat × List UInt8) := do
  let rest ← afterRun? isGap (← word.isPrefixOf? bytes)
  let digits := rest.takeWhile isDigit
  if digits.isEmpty then none
  else
    let lines ← afterRun? endsLine (rest.dropWhile isDigit)
    return (Number.ofDigits (digits.map fun d => d.toNat - 0x30), lines)

/-- The ways in which a line defines a number under a name that ends with a word, with the lines
that follow. -/
def definitions (word : String) (bytes : List UInt8) : List (Nat × List UInt8) :=
  match (plainBytes "#define").isPrefixOf? bytes with
  | none => []
  | some rest =>
    match afterRun? isGap rest with
    | none => []
    | some rest => (restsOfLine rest).filterMap (numberAfter? (plainBytes word))

/-- The bytes after the last place of a word, if it has one. -/
def afterLast? (word : List UInt8) : List UInt8 → Option (List UInt8)
  | [] => word.isPrefixOf? []
  | b :: rest => (afterLast? word rest).or (word.isPrefixOf? (b :: rest))

/-- How many bytes the definitions and the start of the array must lie in. -/
def headLength : Nat := 512

/-- The word before the numbers of the array. -/
def arrayWord : List UInt8 := plainBytes "_bits[]"

/-- How many bytes the first definition must start in with its word. -/
def startLength : Nat := 16

/-- Whether bytes start like a file of this format. -/
def isStart (bytes : List UInt8) : Bool :=
  (plainBytes "#define").isPrefixOf ((bytes.take startLength).dropWhile isSpace)

/-- A width, a height, and the bytes that the numbers stand in. -/
def head? (bytes : List UInt8) : Option (Nat × Nat × List UInt8) := do
  guard (isStart bytes)
  let start := (bytes.take headLength).dropWhile isSpace
  let sizes := (definitions "_width" start).flatMap fun w =>
    (definitions "_height" w.2).map fun h => (w.1, h.1, h.2)
  sizes.findSome? fun (width, height, rest) =>
    (afterLast? arrayWord rest).map fun after =>
      (width, height, after ++ bytes.drop headLength)

/-- The value of a hexadecimal digit, zero for any other byte. -/
def digitValue (b : UInt8) : Nat := (Text.hexValue? (Char.ofNat b.toNat)).getD 0

/-- The numbers of the array: two digits after each letter `x`. -/
def numbers : List UInt8 → List Nat
  | b :: high :: low :: rest =>
    if b = plainByte 'x' then (16 * digitValue high + digitValue low) :: numbers rest
    else numbers (high :: low :: rest)
  | _ => []

/-- The picture of the numbers of an array. -/
def picture (extent : Extent) (numbers : Array Nat) : Picture :=
  let stride := (extent.width + 7) / 8
  .bilevel (.ofFn extent fun p =>
    let column := p % extent.width
    (numbers.getD (p / extent.width * stride + column / 8) 0).testBit (column % 8)) none

/-- The picture of a file, if its definitions are those of this format. -/
def read? (bytes : List UInt8) : Option (Except Unread Picture) := do
  let (width, height, rest) ← head? bytes
  return (extentOf width height).bind fun extent =>
    let numbers := numbers rest
    if numbers.length < (extent.width + 7) / 8 * extent.height then .error .unknown
    else .ok (picture extent numbers.toArray)

end LabelPress.Bitmap.XBitmap
