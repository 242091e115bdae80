import LabelPress.Bitmap.Saving
import LabelPress.Number.Fit

/-!
# What encoders demand

An encoder takes its setting and the resolution in words of its own and refuses what does not fit.
Each format has its own order in which it looks at them. These are the demands of the usual
encoders; labels are saved with any.
-/

namespace LabelPress.Bitmap

open LabelPress.Number LabelPress.Settings

/-- A setting as a quantity. -/
def quantityOf (v : Value) : Except Fault Quantity :=
  match v.quantity? with
  | some q => .ok q
  | none => .error (.noInteger v.kindName)

/-- A setting as an integer. -/
def integerOf (v : Value) : Except Fault Int :=
  match v.integer? with
  | some n => .ok n
  | none => .error (.noInteger v.kindName)

namespace Png

/-- The metres in an inch. -/
def inch : Binary64 := .ofRatio false 254 10000

/-- The dots per metre of a resolution in dots per inch. -/
def dotsPerMetre (dpi : Quantity) : Except Fault Int := do
  (((← dpi.toReal).div inch).add (.ofRatio false 1 2)).truncate

/-- Whether a level of compression is known. The lowest level stands for the encoder's own. -/
def isLevel (n : Int) : Bool := -1 ≤ n && n ≤ 9

/-- Whether the encoder can do what it is asked for. -/
def check (s : Saving) : Except Fault Unit := do
  let dots ← dotsPerMetre (← quantityOf s.dpi)
  let _ ← Word.unsigned.fit dots
  let level ← Word.size.fit (← integerOf s.option)
  if isLevel (Word.short.wrap level) then return () else .error .encoderSetting

end Png

namespace Jpeg

/-- The qualities that have names. -/
def namedQualities : List String :=
  ["web_low", "web_medium", "web_high", "web_very_high", "web_maximum", "low", "medium", "high",
   "maximum"]

/-- The name for the quality that a bitmap was read with, which a new one does not have. -/
def kept : String := "keep"

/-- The most places on a side. -/
def longestSide : Nat := 65500

/-- The number of a quality, if it is not a named one. -/
def qualityNumber? : Value → Except Fault (Option Int)
  | .text s =>
    match s.toString? with
    | none => .error .invalidQuality
    | some name =>
      if name = kept then .error .keptQuality
      else if namedQualities.contains name then .ok none
      else .error .invalidQuality
  | .list items => .error (.notAName (Value.list items).kindName)
  | .object entries => .error (.notAName (Value.object entries).kindName)
  | v =>
    match v.integer? with
    | some n => .ok (some n)
    | none => .error .invalidQuality

/-- The dots per inch of a resolution. -/
def dotsPerInch : Quantity → Except Fault Int
  | .whole n => .ok n
  | .real x => x.nearest

/-- Whether the encoder can do what it is asked for. -/
def check (s : Saving) : Except Fault Unit := do
  let dots ← dotsPerInch (← quantityOf s.dpi)
  let quality ← qualityNumber? s.option
  let _ ← Word.size.fit (quality.getD 0)
  let _ ← Word.size.fit dots
  if s.extent.width ≤ longestSide ∧ s.extent.height ≤ longestSide then return ()
  else .error .encoderFailed

end Jpeg

/-- Whether the encoder can do what it is asked for. -/
def Saving.check (s : Saving) : Except Fault Unit :=
  match s.format with
  | .png => Png.check s
  | .jpeg => Jpeg.check s

end LabelPress.Bitmap
