import LabelPress.Drawing.State
import LabelPress.Entries
import LabelPress.Journal
import LabelPress.Number.Numeral

/-!
# The layouts of fields

A field of the template is laid out where it is first declared, with what the state holds there.
-/

namespace LabelPress

/-- The layouts of fields, in the order of their first declarations. -/
abbrev FieldLayouts := Entries Int Layout

namespace FieldLayouts

/-- Every declaration with the layout that the state holds there. -/
def declarations (s : DrawingState) : List Command → List (Int × Layout)
  | [] => []
  | c :: cs =>
    (c.declares?.map fun n => (n, s.toLayout)).toList
      ++ declarations (s.advance .layout c) cs

/-- The layouts of the fields of a command stream. -/
def ofCommands (start : DrawingState) (cs : List Command) : FieldLayouts :=
  (declarations start (Command.template cs)).foldl (fun ls d => ls.putNew d.1 d.2) []

/-- The report on resolved layouts: their fields in increasing order. -/
def entry (layouts : FieldLayouts) : Journal.Entry :=
  let numbers := (Entries.keys layouts).mergeSort (· ≤ ·)
  ⟨.debug, .passes, "Resolved layouts for fields ["
    ++ ", ".intercalate (numbers.map Number.integerText) ++ "]"⟩

end FieldLayouts

end LabelPress
