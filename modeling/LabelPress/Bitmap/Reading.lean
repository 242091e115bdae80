import LabelPress.Bitmap.FloatMap
import LabelPress.Bitmap.XPixmap

/-!
# Reading pictures

The formats of picture files that are read from their bytes. No file is of two of them.
-/

namespace LabelPress.Bitmap

/-- The readers of formats. Each gives nothing for bytes that do not start like its own. -/
def readers : List (List UInt8 → Option (Except Unread Picture)) :=
  [Portable.read?, FloatMap.read?, XBitmap.read?, XPixmap.read?]

/-- The picture of a file. -/
def Picture.ofBytes (bytes : List UInt8) : Except Unread Picture :=
  (readers.findSome? fun read? => read? bytes).getD (.error .unknown)

end LabelPress.Bitmap
