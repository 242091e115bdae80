import LabelPress.Command.Basic
import LabelPress.Number.Numeral
import LabelPress.Text.Blank
import LabelPress.Text.Word

/-!
# The shapes of command bodies

A body is classified by its keyword and the numerals after it. Blanks may stand before a numeral
and around a comma but not within a keyword, and what follows the last numeral of a shape does not
matter. Classifying is total; only reading the numerals of a shape can fail.
-/

namespace LabelPress.Command

open LabelPress.Text

/-- What a body looks like, with its numerals and texts as they stand. -/
inductive Shape
  | fieldData (text : List Char)
  | fieldOrigin (x y : List Char)
  | fieldNumber (number : List Char)
  | fieldSeparator
  | fieldReverse
  | fieldFont (height width : List Char)
  | graphicBox (width height thickness : List Char)
  | moduleWidth (width : List Char)
  | code128 (height flag : List Char)
  | recallFormat (name : List Char)
  | unrecognized
deriving DecidableEq, Repr

namespace Shape

/-- A run of digits, as long as there are any, and what follows it. -/
def numeral? (cs : List Char) : Option (List Char × List Char) :=
  match cs.takeWhile isDigit with
  | [] => none
  | digits => some (digits, cs.dropWhile isDigit)

/-- A numeral after blanks. -/
def firstNumeral? (cs : List Char) : Option (List Char × List Char) :=
  numeral? (cs.dropWhile isBlank)

/-- A numeral after a comma, with blanks around the comma. -/
def nextNumeral? (cs : List Char) : Option (List Char × List Char) :=
  ([','].isPrefixOf? (cs.dropWhile isBlank)).bind firstNumeral?

/-- Whether the character names a font. -/
def isFontName (c : Char) : Bool := ('0' ≤ c && c ≤ '9') || ('A' ≤ c && c ≤ 'Z')

/-- What follows an orientation, which may be missing. -/
def afterOrientation : List Char → List Char
  | c :: cs => if c = 'N' ∨ c = 'R' ∨ c = 'I' ∨ c = 'B' then cs else c :: cs
  | [] => []

/-- The flag after a symbol's height: blanks, at most one comma, blanks, and a word. -/
def flagAfter (cs : List Char) : List Char :=
  let cs := cs.dropWhile isBlank
  let cs := ([','].isPrefixOf? cs).getD cs
  (cs.dropWhile isBlank).takeWhile isWordChar

/-- A field's text. -/
def fieldData? (cs : List Char) : Option Shape := do
  let rest ← ['F', 'D'].isPrefixOf? cs
  return fieldData (trim rest)

/-- An origin with two coordinates. -/
def fieldOrigin? (cs : List Char) : Option Shape := do
  let rest ← ['F', 'O'].isPrefixOf? cs
  let (x, rest) ← firstNumeral? rest
  let (y, _) ← nextNumeral? rest
  return fieldOrigin x y

/-- A field number right after its keyword. -/
def fieldNumber? (cs : List Char) : Option Shape := do
  let rest ← ['F', 'N'].isPrefixOf? cs
  let (number, _) ← numeral? rest
  return fieldNumber number

/-- A separator, with nothing but blanks after it. -/
def fieldSeparator? (cs : List Char) : Option Shape := do
  let rest ← ['F', 'S'].isPrefixOf? cs
  if rest.all isBlank then return fieldSeparator else none

/-- A reversal, with nothing but blanks after it. -/
def fieldReverse? (cs : List Char) : Option Shape := do
  let rest ← ['F', 'R'].isPrefixOf? cs
  if rest.all isBlank then return fieldReverse else none

/-- A font's name, orientation, height and width. -/
def fieldFont? (cs : List Char) : Option Shape := do
  let rest ← ['A'].isPrefixOf? cs
  let name :: rest := rest | none
  if isFontName name then
    let (height, rest) ← nextNumeral? (afterOrientation rest)
    let (width, _) ← nextNumeral? rest
    return fieldFont height width
  else none

/-- A box with its sides and thickness. -/
def graphicBox? (cs : List Char) : Option Shape := do
  let rest ← ['G', 'B'].isPrefixOf? cs
  let (width, rest) ← firstNumeral? rest
  let (height, rest) ← nextNumeral? rest
  let (thickness, _) ← nextNumeral? rest
  return graphicBox width height thickness

/-- A module width. -/
def moduleWidth? (cs : List Char) : Option Shape := do
  let rest ← ['B', 'Y'].isPrefixOf? cs
  let (width, _) ← firstNumeral? rest
  return moduleWidth width

/-- A symbol's orientation, height and flag. A missing flag means yes. -/
def code128? (cs : List Char) : Option Shape := do
  let rest ← ['B', 'C'].isPrefixOf? cs
  let (height, rest) ← nextNumeral? (afterOrientation rest)
  let flag := flagAfter rest
  return code128 height (if flag.isEmpty then ['Y'] else flag)

/-- A recall of a stored format by its name. -/
def recallFormat? (cs : List Char) : Option Shape := do
  let rest ← ['X', 'F'].isPrefixOf? cs
  return recallFormat (trim rest)

/-- The shape of a body: the first that fits. -/
def of (cs : List Char) : Shape :=
  (fieldData? cs <|> fieldOrigin? cs <|> fieldNumber? cs <|> fieldSeparator? cs
    <|> fieldReverse? cs <|> fieldFont? cs <|> graphicBox? cs <|> moduleWidth? cs
    <|> code128? cs <|> recallFormat? cs).getD unrecognized

end Shape

end LabelPress.Command
