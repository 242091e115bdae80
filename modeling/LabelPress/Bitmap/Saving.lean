import LabelPress.Bitmap.Grid
import LabelPress.Settings.Value

/-!
# Saving bitmaps

What the encoder of bitmap files is asked for. Each format has one setting of its own, and both
record the resolution.
-/

namespace LabelPress.Bitmap

open LabelPress.Settings

/-- The formats of bitmap files. -/
inductive Format
  | png
  | jpeg
deriving DecidableEq, Repr

namespace Format

/-- The name of a format. -/
def name : Format → String
  | png => "PNG"
  | jpeg => "JPEG"

/-- The formats by the endings of file names, in small letters. -/
def suffixes : List (String × Format) := [(".png", png), (".jpg", jpeg), (".jpeg", jpeg)]

/-- The format that the ending of a file name belongs to. -/
def ofSuffix? (suffix : String) : Option Format :=
  suffixes.lookup (String.ofList (suffix.toList.map Char.toLower))

/-- What the encoder calls the setting of a format. -/
def optionName : Format → String
  | png => "compress_level"
  | jpeg => "quality"

/-- What a configuration calls the setting of a format. -/
def optionKey : Format → String
  | png => "png_compress_level"
  | jpeg => "jpeg_quality"

/-- The setting of a format if none is given. -/
def standardOption : Format → Value
  | png => .int 9
  | jpeg => .int 90

end Format

/-- What the encoder is asked for. -/
structure Saving where
  path : String
  format : Format
  extent : Extent
  option : Value
  dpi : Value

/-- The options for the encoder, in the order of their names. -/
def Saving.options (s : Saving) : Entries String Value :=
  let dpi := ("dpi", Value.list [s.dpi, s.dpi])
  match s.format with
  | .png => [(s.format.optionName, s.option), dpi]
  | .jpeg => [dpi, (s.format.optionName, s.option)]

end LabelPress.Bitmap
