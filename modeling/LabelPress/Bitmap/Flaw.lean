import LabelPress.Text.Quoted
import LabelPress.Text.Utf8

/-!
# Flaws of picture files

A file of a known format may break its rules. Its tokens are shown as the bytes that they are.
-/

namespace LabelPress.Bitmap

/-- How a picture file breaks the rules of its format. -/
inductive Flaw
  /-- The header ends too early. -/
  | headerEnds
  /-- A token of the header is too long. -/
  | longHeaderToken (token : List UInt8)
  /-- A token is no integer. -/
  | noInteger (token : List UInt8)
  /-- A token is no hexadecimal integer. -/
  | noHexInteger (token : List UInt8)
  /-- A token is no number. -/
  | noNumber (token : List UInt8)
  /-- The greatest sample is none. -/
  | greatestSample
  /-- The scale of the samples is none. -/
  | noScale
  /-- A key stands for no colour. -/
  | noColor
  /-- A place has a key that stands for nothing. -/
  | unknownKey
  /-- There are too few samples. -/
  | tooFewSamples
  /-- A byte is no bit. -/
  | noBit (byte : UInt8)
  /-- A token among the samples is too long. -/
  | longToken (token : List UInt8)
  /-- A sample is negative. -/
  | negativeSample (n : Int)
  /-- A sample is above the greatest. -/
  | largeSample (n : Int)
  /-- The picture has more places than are allowed. -/
  | tooManyPlaces (count : Nat)
deriving DecidableEq, Repr

namespace Flaw

/-- The most places that a picture file may have. -/
def placeLimit : Nat := 178956970

/-- A wording with a token at its end, in quotes as a whole. -/
def withToken (wording : String) (token : List UInt8) : String :=
  Text.quotedBytes (Text.utf8 wording ++ token)

/-- The wording for a token that is no integer. -/
def noIntegerText (base : String) (token : List UInt8) : String :=
  "invalid literal for int() with base " ++ base ++ ": " ++ Text.quotedBytes token

/-- The wording of a flaw. -/
def message : Flaw → String
  | headerEnds => "Reached EOF while reading header"
  | longHeaderToken token => withToken "Token too long in file header: " token
  | noInteger token => noIntegerText "10" token
  | noHexInteger token => noIntegerText "16" token
  | noNumber token => "could not convert string to float: " ++ Text.quotedBytes token
  | greatestSample => "maxval must be greater than 0 and less than 65536"
  | noScale => "scale must be finite and non-zero"
  | noColor => "cannot read this XPM file"
  | unknownKey => "tuple.index(x): x not in tuple"
  | tooFewSamples => "not enough image data"
  | noBit byte => withToken "Invalid token for this mode: " [byte]
  | longToken token => withToken "Token too long found in data: " token
  | negativeSample n => "Channel value is negative: " ++ toString n
  | largeSample n => "Channel value too large for this mode: " ++ toString n
  | tooManyPlaces count =>
    "Image size (" ++ toString count ++ " pixels) exceeds limit of " ++ toString placeLimit
      ++ " pixels, could be decompression bomb DOS attack."

end Flaw

/-- Why data give no picture. -/
inductive Unread
  /-- They are of no known format, or not complete. -/
  | unknown
  /-- They break the rules of their format. -/
  | flawed (flaw : Flaw)
deriving DecidableEq, Repr

end LabelPress.Bitmap
