/-!
# Graphic boxes

A box has two sides and a line thickness, which together decide what it looks like.
-/

namespace LabelPress

/-- The sides of a graphic box and the thickness of its line. -/
structure Box where
  width : Int
  height : Int
  thickness : Int
deriving DecidableEq, Repr

namespace Box

/-- What a box looks like. -/
inductive Kind
  | filled
  | line
  | border
deriving DecidableEq, Repr

/-- A line thicker than a side fills the box, one as thick as a side makes it a single line, and a
thinner one is an outline. -/
def kind (b : Box) : Kind :=
  if b.width < b.thickness ∨ b.height < b.thickness then .filled
  else if b.thickness = b.width ∨ b.thickness = b.height then .line
  else .border

/-- The identifier of a kind. -/
def Kind.identifier : Kind → String
  | filled => "filled"
  | line => "line"
  | border => "border"

/-- The languages that kinds are named in. -/
inductive Language
  | russian
  | english
deriving DecidableEq, Repr

/-- The name of a kind. -/
def Kind.name : Language → Kind → String
  | .russian, filled => "Залитый прямоугольник"
  | .russian, line => "Линия"
  | .russian, border => "Рамка"
  | .english, filled => "Filled box"
  | .english, line => "Line"
  | .english, border => "Border"

end Box

end LabelPress
