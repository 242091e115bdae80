import LabelPress.Box

/-!
# Label commands

The commands of a label that the interpreter acts on, and one form for all others, which still
take up a place in the stream.
-/

namespace LabelPress

/-- A command of a label. -/
inductive Command
  /-- The height and width of the font from here on. -/
  | fieldFont (height width : Int)
  /-- The position from here on. -/
  | fieldOrigin (x y : Int)
  /-- The declaration of a field. -/
  | fieldNumber (number : Int)
  /-- The text of a field, or text of its own. -/
  | fieldData (text : String)
  /-- The next item is to be inverted. -/
  | fieldReverse
  /-- The end of a field. -/
  | fieldSeparator
  /-- A box at the current position. -/
  | graphicBox (box : Box)
  /-- The width of a bar module from here on. -/
  | moduleWidth (width : Int)
  /-- A Code 128 symbol of a height for the field declared next. The flag tells whether its text is
  printed under the bars. -/
  | code128 (height : Int) (flag : String)
  /-- The end of the template and the recall of a stored one. -/
  | recallFormat (name : String)
  /-- Any other command, by its body. -/
  | unrecognized (body : String)
deriving DecidableEq, Repr

namespace Command

/-- The number that a command declares. -/
def declares? : Command → Option Int
  | fieldNumber n => some n
  | _ => none

/-- Whether a command recalls a stored format. -/
def isRecall : Command → Bool
  | recallFormat _ => true
  | _ => false

/-- The commands before the first recall. -/
def template (cs : List Command) : List Command := cs.takeWhile fun c => !c.isRecall

/-- The field declared right after a command, separators between them apart. -/
def nextField? : (after : List Command) → Option Int
  | fieldNumber n :: _ => some n
  | fieldSeparator :: rest => nextField? rest
  | _ => none

/-- How far back a declaration still owns a text. -/
def lookback : Nat := 3

/-- Whether a field was declared among the last commands, which come latest first. -/
def declaredWithin (window : Nat) (before : List Command) : Bool :=
  (before.take window).any fun c => c.declares?.isSome

end Command

end LabelPress
