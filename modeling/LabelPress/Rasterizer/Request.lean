import LabelPress.Fault

/-!
# Requests to rasterizers

A document may come from anywhere, so its text is of code points. Only one of characters can be
handed over.
-/

namespace LabelPress.Rasterizer

/-- A document and the size in pixels at which it is to be drawn. -/
structure Request where
  document : Text.CodePoints
  width : Int
  height : Int
deriving DecidableEq, Repr

/-- The document as a text of characters. -/
def Request.characters (r : Request) : Except Fault String :=
  match r.document.toString? with
  | some text => .ok text
  | none => .error (.noCharacters r.document.firstHalves)

end LabelPress.Rasterizer
