import LabelPress.Barcode.Pattern
import LabelPress.Canvas.Primitive
import LabelPress.Journal
import LabelPress.Number.Binary64
import LabelPress.Number.Numeral
import LabelPress.Text.Quoted

/-!
# Bar code symbols

A symbol is a start, the characters of its payload that have patterns, and a stop. It has no check
character, and a character without a pattern is left out.
-/

namespace LabelPress.Barcode

open LabelPress.Number

/-- A symbol: its payload, the width of a module before scaling, the height of its bars, and the
flag that tells whether the payload is printed under them. -/
structure Symbol where
  data : String
  moduleWidth : Int := 2
  height : Int := 100
  flag : String := "Y"
deriving DecidableEq, Repr

/-- Bars drawn with the full width of a module look too wide, so it is divided by this. -/
def widthDivisor : Binary64 := .ofRatio false 3 2

/-- The width of a drawn module, never below one. -/
def drawnWidth (moduleWidth : Int) : Except Fault Int := do
  let n ← ((← Binary64.ofInt moduleWidth).div widthDivisor).nearest
  return max 1 n

/-- How far below the bars the payload is printed. -/
def captionDistance : Int := 20

/-- The size of the printed payload. -/
def captionSize : Int := 12

namespace Symbol

/-- A part of a symbol. -/
inductive Group
  | start
  | character (c : Char)
  | stop
deriving DecidableEq, Repr

/-- The label of a part. -/
def Group.label : Group → String
  | start => "START"
  | character c => String.ofList [c]
  | stop => "STOP"

/-- The characters of a payload that have patterns. -/
def covered (data : String) : List Char :=
  data.toList.filter fun c => (Pattern.ofChar? c).isSome

/-- The characters of a payload that have none. -/
def uncovered (data : String) : List Char :=
  data.toList.filter fun c => (Pattern.ofChar? c).isNone

/-- The parts of a symbol with their patterns. -/
def groups (data : String) : List (Group × Pattern) :=
  (.start, Pattern.start)
    :: data.toList.filterMap (fun c => (Pattern.ofChar? c).map fun p => (Group.character c, p))
    ++ [(.stop, Pattern.stop)]

/-- The width of a symbol in drawn units, light modules included. -/
def width (data : String) (drawn : Int) : Int :=
  ((groups data).flatMap Prod.snd).length * drawn

/-- Bars for modules that start at a position: a dark module is drawn, and every module moves the
position on. -/
def barsFrom (drawn height y : Int) : (x : Int) → Pattern → List Rect
  | _, [] => []
  | x, dark :: rest =>
    (if dark then [{ x, y, width := drawn, height, fill := "black", stroke := "none" }] else [])
      ++ barsFrom drawn height y (x + drawn) rest

/-- The bars of a symbol at a position. -/
def bars (s : Symbol) (drawn x y : Int) : List Rect :=
  barsFrom drawn s.height y x ((groups s.data).flatMap Prod.snd)

/-- Whether the payload is printed under the bars. -/
def hasCaption (s : Symbol) : Bool := s.flag ≠ "N" && s.flag ≠ "n"

/-- The payload under the bars, centred on them. -/
def caption (s : Symbol) (drawn x y : Int) : Option TextLine :=
  if s.hasCaption then
    some
      { text := s.data, x := x + width s.data drawn / 2, y := y + s.height + captionDistance,
        size := captionSize, anchor := some "middle" }
  else none

/-- All that is painted for a symbol at a position. -/
def primitives (s : Symbol) (drawn x y : Int) : List Primitive :=
  (s.bars drawn x y).map .rect ++ ((s.caption drawn x y).map .text).toList

/-- The report on a character without a pattern. -/
def skippedEntry (c : Char) : Journal.Entry :=
  ⟨.debug, .barcode,
    "No Code 128 pattern for " ++ Text.quoted (String.ofList [c]) ++ ", skipped"⟩

/-- The reports on drawing a symbol. Its parts are gone through once for the bars and once more for
the width that a printed payload is centred on. -/
def journal (s : Symbol) (drawn x y : Int) : List Journal.Entry :=
  let skipped := (uncovered s.data).map skippedEntry
  ⟨.debug, .barcode, "Drawing Code 128 " ++ Text.quoted s.data ++ " at (" ++ integerText x ++ ", "
      ++ integerText y ++ ") module=" ++ integerText drawn ++ " height=" ++ integerText s.height⟩
    :: skipped ++ (if s.hasCaption then skipped else [])

end Symbol

/-- The bars of a payload, drawn from the origin. -/
def encode (data : String) (moduleWidth height : Int) : Except Fault (List Rect) := do
  let drawn ← drawnWidth moduleWidth
  return Symbol.bars { data, moduleWidth, height } drawn 0 0

end LabelPress.Barcode
