import LabelPress.Rasterizer.Basic

/-!
# The drawing library

The library draws in the program itself, if it can be loaded. It may refuse a document, as it does
one that is not of characters, and data without a byte is no data.
-/

namespace LabelPress.Rasterizer

/-- The library on a machine: why it cannot be loaded, or what it gives for a request on a
ground. -/
inductive CairoLibrary
  | unusable (reason : String)
  | loaded (draw : Request → (ground : String) → Except String (List UInt8))

namespace CairoLibrary

/-- The name under which the library is selected. -/
def name : String := "cairosvg"

/-- The ground that the library draws on. -/
def ground : String := "white"

/-- The fault of a document that is refused. -/
def refused (reason : String) : Fault := .rasterizationFailed ("cairosvg failed: " ++ reason)

/-- The data that a drawing gives. -/
def dataOf : Except String (List UInt8) → Except Fault (List UInt8)
  | .error reason => .error (refused reason)
  | .ok [] => .error (.rasterizationFailed "cairosvg returned no data")
  | .ok bytes => .ok bytes

/-- The library as a rasterizer. -/
def rasterizer : CairoLibrary → Rasterizer (List UInt8)
  | unusable reason =>
    { name := name, available := false,
      rasterize := fun _ =>
        .of (.error (.rasterizerUnavailable ("cairosvg is not usable: " ++ reason))) }
  | loaded draw =>
    { name := name, available := true,
      rasterize := fun r =>
        match r.characters with
        | .error fault => .of (.error (refused fault.message))
        | .ok _ => ⟨[.libraryCalled r ground], [], dataOf (draw r ground)⟩ }

end CairoLibrary

end LabelPress.Rasterizer
