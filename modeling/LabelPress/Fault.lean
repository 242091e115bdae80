import LabelPress.Bitmap.Flaw
import LabelPress.Number.Word
import LabelPress.Text.Quoted

/-!
# What can go wrong

Every failure is a cause; its wording is in one place.
-/

namespace LabelPress

/-- The kinds of failures that other programs and libraries have. -/
inductive Foreign
  | missingKey
  | badValue
  | system
  | internal
deriving DecidableEq, Repr

/-- The causes for which an operation gives no result. -/
inductive Fault
  /-- A numeral of more digits than may be read. -/
  | numeralTooLong (digits : Nat)
  /-- An integer of more digits than may be written. -/
  | integerTooLong
  /-- A text with halves of surrogate pairs where one of characters is wanted. -/
  | noCharacters (halves : Text.CodePoints.HalfRun)
  /-- An integer beyond the finite floating-point numbers. -/
  | integerBeyondFloat
  /-- A text that spells no floating-point number. -/
  | noFloat (text : String)
  /-- An integer that a word cannot hold, because it is too small or too large. -/
  | beyondWord (word : Number.Word) (small : Bool)
  /-- An infinity where an integer is wanted. -/
  | infinityToInteger
  /-- A NaN where an integer is wanted. -/
  | nanToInteger
  /-- Text to draw and no font file to draw it with. -/
  | fontNotFound (path : Option String)
  /-- A path that leads nowhere. -/
  | noSuchFile (path : String)
  /-- A path that leads to a folder where a file is wanted. -/
  | isFolder (path : String)
  /-- A path that leads through a file as if it were a folder. -/
  | notFolder (path : String)
  /-- A path that is too long, or in which a name is. -/
  | nameTooLong (path : String)
  /-- A path with the null character in it. -/
  | nullInPath
  /-- A setting of a kind that names no path. -/
  | notAPath (kind : String)
  /-- Settings of kinds that have no product. -/
  | noProduct (left right : String)
  /-- A text or a list to be repeated by something of a kind that is no whole number. -/
  | noRepetition (kind : String)
  /-- A text or a list where a length is wanted. -/
  | notALength (kind : String)
  /-- A text that is repeated beyond all sizes. -/
  | textTooLong
  /-- More than the memory can hold. -/
  | outOfMemory
  /-- Settings too deep in each other, with the kind of what is too deep. -/
  | nestedTooDeep (kind : String)
  /-- A setting of a kind that has no items. -/
  | noItems (kind : String)
  /-- An item of a kind that cannot be a name. -/
  | notAName (kind : String)
  /-- A rasterizer that is not known, in its shown form, with the known ones. -/
  | unknownRasterizer (shown known : String)
  /-- A chain of no rasterizers. -/
  | emptyChain
  /-- A rasterizer whose tool or library is not installed. -/
  | rasterizerUnavailable (detail : String)
  /-- A document that could not be rasterized. -/
  | rasterizationFailed (detail : String)
  /-- A picture file that breaks the rules of its format. -/
  | flawedPicture (flaw : Bitmap.Flaw)
  /-- A bitmap of no extent. -/
  | noExtent
  /-- A file name whose ending belongs to no bitmap format. -/
  | unsupportedFormat (suffix : String)
  /-- A setting of a kind that is no integer. -/
  | noInteger (kind : String)
  /-- A quality that is none. -/
  | invalidQuality
  /-- A quality to be kept, of a bitmap that had none. -/
  | keptQuality
  /-- A setting that the encoder cannot work with. -/
  | encoderSetting
  /-- A bitmap that the encoder cannot write. -/
  | encoderFailed
  /-- A failure of something that the program calls and does not know. -/
  | foreign (kind : Foreign) (detail : String)
deriving DecidableEq, Repr

namespace Fault

/-- The most digits that a numeral may have. -/
def digitLimit : Nat := 4300

/-- The wording for a number of more digits than the limit, with what is known of them. -/
def beyondLimit (detail : String) : String :=
  "Exceeds the limit (" ++ toString digitLimit ++ " digits) for integer string conversion" ++ detail
    ++ "; use sys.set_int_max_str_digits() to increase the limit"

/-- The wording for an integer that a word cannot hold. -/
def beyondWordText (small : Bool) : Number.Word → String
  | .index => "cannot fit 'int' into an index-sized integer"
  | .size => "Python int too large to convert to C ssize_t"
  | .long => "Python int too large to convert to C long"
  | .short => "signed integer is " ++ if small then "less than minimum" else "greater than maximum"
  | .unsigned =>
    if small then "can't convert negative int to unsigned" else "int too big to convert"

/-- The wording for a text with halves: one is shown, several are given by their places. -/
def noCharactersText (halves : Text.CodePoints.HalfRun) : String :=
  let what := match halves.values with
    | [v] => "character '\\u" ++ String.ofList (Text.hexDigits 4 v) ++ "' in position "
      ++ toString halves.place
    | values => "characters in position " ++ toString halves.place ++ "-"
      ++ toString (halves.place + values.length - 1)
  "'utf-8' codec can't encode " ++ what ++ ": surrogates not allowed"

/-- The wording of a cause. -/
def message : Fault → String
  | numeralTooLong digits => beyondLimit (": value has " ++ toString digits ++ " digits")
  | integerTooLong => beyondLimit ""
  | noCharacters halves => noCharactersText halves
  | integerBeyondFloat => "int too large to convert to float"
  | noFloat text => "could not convert string to float: " ++ Text.quoted text
  | beyondWord word small => beyondWordText small word
  | infinityToInteger => "cannot convert float infinity to integer"
  | nanToInteger => "cannot convert float NaN to integer"
  | fontNotFound path => "Font file not found: " ++ path.getD "None"
  | noSuchFile path => "[Errno 2] No such file or directory: " ++ Text.quoted path
  | isFolder path => "[Errno 21] Is a directory: " ++ Text.quoted path
  | notFolder path => "[Errno 20] Not a directory: " ++ Text.quoted path
  | nameTooLong path => "[Errno 36] File name too long: " ++ Text.quoted path
  | nullInPath => "embedded null byte"
  | notAPath kind => "expected str, bytes or os.PathLike object, not " ++ kind
  | noProduct left right =>
    "unsupported operand type(s) for *: '" ++ left ++ "' and '" ++ right ++ "'"
  | noRepetition kind => "can't multiply sequence by non-int of type '" ++ kind ++ "'"
  | notALength kind =>
    "can only concatenate " ++ kind ++ " (not \"float\") to " ++ kind
  | textTooLong => "repeated string is too long"
  | outOfMemory => ""
  | nestedTooDeep kind =>
    "maximum recursion depth exceeded while decoding a JSON " ++ kind ++ " from a unicode string"
  | noItems kind => "'" ++ kind ++ "' object is not iterable"
  | notAName kind => "unhashable type: '" ++ kind ++ "'"
  | unknownRasterizer shown known =>
    "Unknown rasterizer " ++ shown ++ "; expected one of " ++ known
  | emptyChain => "RasterizerChain needs at least one strategy"
  | rasterizerUnavailable detail => detail
  | rasterizationFailed detail => detail
  | flawedPicture flaw => flaw.message
  | noExtent => "height and width must be > 0"
  | unsupportedFormat suffix =>
    "Unsupported output format " ++ Text.quoted suffix ++ "; expected .png, .jpg or .jpeg"
  | noInteger kind => "'" ++ kind ++ "' object cannot be interpreted as an integer"
  | invalidQuality => "Invalid quality setting"
  | keptQuality => "Cannot use 'keep' when original image is not a JPEG"
  | encoderSetting => "codec configuration error when writing image file"
  | encoderFailed => "broken data stream when writing image file"
  | foreign .missingKey detail => Text.quoted detail
  | foreign _ detail => detail

/-- A result after another needs both. -/
theorem bind_eq_ok_iff {α β : Type} {x : Except Fault α} {f : α → Except Fault β} {b : β} :
    x.bind f = .ok b ↔ ∃ a, x = .ok a ∧ f a = .ok b := by
  cases x <;> simp [Except.bind]

end Fault

end LabelPress
