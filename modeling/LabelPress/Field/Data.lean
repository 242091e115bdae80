import LabelPress.Command.Basic
import LabelPress.Entries
import LabelPress.Journal
import LabelPress.Number.Numeral
import LabelPress.Text.Quoted

/-!
# The data of fields

A declared field waits across separators for its text; any other command ends the wait. A field
that gets a text again keeps its place among the fields and takes the later text.
-/

namespace LabelPress

/-- The texts of fields, in the order in which the fields were first bound. -/
abbrev FieldData := Entries Int String

namespace FieldData

/-- The bindings of texts to fields, one after the other. `waiting` is the field that waits. -/
def bindings : (waiting : Option Int) → List Command → List (Int × String)
  | _, [] => []
  | _, .fieldNumber n :: cs => bindings (some n) cs
  | some n, .fieldData text :: cs => (n, text) :: bindings none cs
  | none, .fieldData _ :: cs => bindings none cs
  | waiting, .fieldSeparator :: cs => bindings waiting cs
  | _, _ :: cs => bindings none cs

/-- The data of the fields of a command stream. -/
def ofCommands (cs : List Command) : FieldData := Entries.putAll [] (bindings none cs)

/-- The report on a binding. -/
def bindingEntry (b : Int × String) : Journal.Entry :=
  ⟨.debug, .passes,
    "Field " ++ Number.integerText b.1 ++ " bound to " ++ Text.quoted b.2⟩

/-- The reports on the bindings of a command stream. -/
def journal (cs : List Command) : List Journal.Entry := (bindings none cs).map bindingEntry

end FieldData

end LabelPress
