import LabelPress.Number.Binary64

/-!
# Quantities

A number of settings is whole or fractional. Whole numbers multiply exactly; with a fractional one
the product is fractional.
-/

namespace LabelPress.Number

/-- A whole or a fractional number. -/
inductive Quantity
  | whole (n : Int)
  | real (x : Binary64)
deriving DecidableEq, Repr

namespace Quantity

/-- The quantity as a fractional number, unless it is too large for one. -/
def toReal : Quantity → Except Fault Binary64
  | whole n => Binary64.ofInt n
  | real x => .ok x

/-- The product. -/
def times : Quantity → Quantity → Except Fault Quantity
  | whole m, whole n => .ok (whole (m * n))
  | x, y => do return real ((← x.toReal).mul (← y.toReal))

/-- The nearest whole number, a half rounded up. -/
def roundUpHalf (q : Quantity) : Except Fault Int := do
  ((← q.toReal).add (.ofRatio false 1 2)).floor

end Quantity

end LabelPress.Number
