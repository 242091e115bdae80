/-!
# Primitives

What a document is made of, each painted over those before it.
-/

namespace LabelPress

/-- A text on a line of its own. -/
structure TextLine where
  text : String
  x : Int
  y : Int
  size : Int
  color : String := "black"
  family : String := "Arial, sans-serif"
  weight : String := "normal"
  /-- Where the position lies on the line, if not at its start. -/
  anchor : Option String := none
  /-- The file that holds the font of the family, if it is embedded. -/
  fontPath : Option String := none
deriving DecidableEq, Repr

/-- A rectangle. -/
structure Rect where
  x : Int
  y : Int
  width : Int
  height : Int
  fill : String := "none"
  stroke : String := "black"
  strokeWidth : Int := 1
deriving DecidableEq, Repr

/-- A straight line. -/
structure Line where
  x1 : Int
  y1 : Int
  x2 : Int
  y2 : Int
  stroke : String := "black"
  strokeWidth : Int := 1
deriving DecidableEq, Repr

/-- An element of a document. -/
inductive Primitive
  | rect (r : Rect)
  | line (l : Line)
  | text (t : TextLine)
deriving DecidableEq, Repr

/-- The colours that labels are painted with. -/
inductive Color
  | black
  | white
  | none
deriving DecidableEq, Repr

/-- The word for a colour. -/
def Color.name : Color → String
  | black => "black"
  | white => "white"
  | none => "none"

/-- All colours. -/
def Color.all : List Color := [black, white, none]

end LabelPress
