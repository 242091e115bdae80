import LabelPress.Fault

/-!
# Dependencies

Which of the libraries and tools that the program can use are there. A library that is there but
cannot be loaded ends the check, the rasterizer's apart, which then counts as missing.
-/

namespace LabelPress

/-- How loading a library ends. -/
inductive LibraryState
  | present
  | missing
  | broken (reason : String)
deriving DecidableEq, Repr

/-- What the program can use. -/
inductive Dependency
  | svgWriter
  | imaging
  | cairo
  | rsvgTool
  | barcodes
deriving DecidableEq, Repr

namespace Dependency

/-- The name under which a dependency is listed. -/
def name : Dependency → String
  | svgWriter => "svgwrite"
  | imaging => "pillow"
  | cairo => "cairosvg"
  | rsvgTool => "rsvg-convert"
  | barcodes => "python-barcode"

/-- All dependencies in the order in which they are checked. -/
def all : List Dependency := [svgWriter, imaging, cairo, rsvgTool, barcodes]

/-- Whether a dependency can be used. -/
def usable (state : Dependency → LibraryState) (d : Dependency) : Except Fault Bool :=
  match state d with
  | .present => .ok true
  | .missing => .ok false
  | .broken reason => if d = cairo then .ok false else .error (.foreign .system reason)

/-- Which dependencies can be used. -/
def check (state : Dependency → LibraryState) : Except Fault (List (Dependency × Bool)) :=
  all.mapM fun d => do return (d, ← usable state d)

end Dependency

end LabelPress
