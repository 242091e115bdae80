import LabelPress.Command.Reader

/-!
# Spelling commands

Every command has one documented spelling, which the reader takes back. A stream is spelled command
by command.
-/

namespace LabelPress.Command

open LabelPress.Number

/-- Integers with commas between them. -/
def numerals (ns : List Int) : List Char :=
  [','].intercalate (ns.map fun n => (integerText n).toList)

/-- The documented body of a command. -/
def body : Command → List Char
  | fieldFont height width => "A0N,".toList ++ numerals [height, width]
  | fieldOrigin x y => "FO".toList ++ numerals [x, y]
  | fieldNumber n => "FN".toList ++ numerals [n]
  | fieldData text => "FD".toList ++ text.toList
  | fieldReverse => "FR".toList
  | fieldSeparator => "FS".toList
  | graphicBox b => "GB".toList ++ numerals [b.width, b.height, b.thickness]
  | moduleWidth width => "BY".toList ++ numerals [width]
  | code128 height flag => "BCN,".toList ++ numerals [height] ++ ',' :: flag.toList
  | recallFormat name => "XF".toList ++ name.toList
  | unrecognized body => body.toList

/-- The markup of a command stream. -/
def spell (cs : List Command) : List Char := cs.flatMap fun c => caret :: c.body

end LabelPress.Command
