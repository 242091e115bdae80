import LabelPress.Command.Shape
import LabelPress.Journal

/-!
# Reading label markup

Markup is cut at its carets, and every piece that is not empty is the body of one command.
-/

namespace LabelPress.Command

open LabelPress.Number

/-- The character that starts a command. -/
def caret : Char := '^'

/-- The bodies of the commands of a markup. -/
def bodies (markup : List Char) : List (List Char) :=
  (markup.splitOn caret).filter fun piece => !piece.isEmpty

theorem bodies_append (a b : List Char) : bodies (a ++ caret :: b) = bodies a ++ bodies b := by
  simp [bodies, List.splitOn_append_cons_self]

/-- The command of a shape and of the body that has it. -/
def ofShape (body : List Char) : Shape → Except Fault Command
  | .fieldData text => .ok (fieldData (String.ofList text))
  | .fieldOrigin x y => return fieldOrigin (← readNumeral x) (← readNumeral y)
  | .fieldNumber number => return fieldNumber (← readNumeral number)
  | .fieldSeparator => .ok fieldSeparator
  | .fieldReverse => .ok fieldReverse
  | .fieldFont height width => return fieldFont (← readNumeral height) (← readNumeral width)
  | .graphicBox width height thickness =>
    return graphicBox ⟨← readNumeral width, ← readNumeral height, ← readNumeral thickness⟩
  | .moduleWidth width => return moduleWidth (← readNumeral width)
  | .code128 height flag => return code128 (← readNumeral height) (String.ofList flag)
  | .recallFormat name => .ok (recallFormat (String.ofList name))
  | .unrecognized => .ok (unrecognized (String.ofList body))

/-- The command with a body. -/
def ofBody (body : List Char) : Except Fault Command := ofShape body (Shape.of body)

/-- The commands of a markup. -/
def ofMarkup (markup : String) : Except Fault (List Command) :=
  (bodies markup.toList).mapM ofBody

/-- The report on a markup that was read. -/
def readEntry (cs : List Command) : Journal.Entry :=
  ⟨.debug, .commands, "Tokenized " ++ toString cs.length ++ " commands"⟩

end LabelPress.Command
