import LabelPress.Barcode.Symbol
import LabelPress.Field.Data
import LabelPress.Field.Layouts

/-!
# Plans

What a command stream asks to be painted, before anything is painted: boxes and symbols where they
stand, text that belongs to no field, and last the texts of fields. A plan never fails; only
carrying it out can.
-/

namespace LabelPress

open LabelPress.Barcode

/-- One thing to do for a label. -/
inductive Task
  /-- Paint a box at a position. -/
  | box (x y : Int) (box : Box) (reverse : Bool)
  /-- Paint a text in a layout. -/
  | text (text : String) (layout : Layout)
  /-- Paint a symbol at a position. -/
  | symbol (symbol : Symbol) (x y : Int)
  /-- Report a symbol, by its place in the stream, that no field follows. -/
  | symbolWithoutField (place : Nat)
  /-- Report a symbol whose field has no data. -/
  | symbolWithoutData (field : Int)
  /-- Report a field with data that was never laid out. -/
  | dataWithoutLayout (field : Int)
deriving DecidableEq, Repr

/-- Things to do in order. -/
abbrev Plan := List Task

namespace Plan

/-- The text that a command paints by itself: it is not empty, and no field was declared among the
last commands, which come latest first. -/
def ownText? (before : List Command) : Command → Option String
  | .fieldData text =>
    if text ≠ "" && !Command.declaredWithin Command.lookback before then some text else none
  | _ => none

/-- The field that a command draws a symbol for. -/
def symbolField? (after : List Command) : Command → Option Int
  | .code128 .. => Command.nextField? after
  | _ => none

/-- The state after a command while painting. A text that is painted uses up the reverse flag. -/
def advance (before : List Command) (s : DrawingState) (c : Command) : DrawingState :=
  (if (ownText? before c).isSome then s.upright else s).advance .painting c

/-- What a symbol's command asks for. -/
def symbolTask (data : FieldData) (place : Nat) (after : List Command) (s : DrawingState) : Task :=
  match Command.nextField? after with
  | none => .symbolWithoutField place
  | some n =>
    match data.get? n with
    | none => .symbolWithoutData n
    | some text => .symbol ⟨text, s.moduleWidth, s.symbolHeight, s.symbolFlag⟩ s.x s.y

/-- What a command asks for, between the commands before it, latest first, and after it. -/
def task? (data : FieldData) (before after : List Command) (s : DrawingState) (c : Command) :
    Option Task :=
  match c with
  | .graphicBox b => some (.box s.x s.y b s.reverse)
  | .code128 .. => some (symbolTask data before.length after (advance before s c))
  | _ => (ownText? before c).map fun text => .text text s.toLayout

/-- What the commands from a place on ask for. -/
def commandsFrom (data : FieldData) (before : List Command) (s : DrawingState) :
    List Command → Plan
  | [] => []
  | c :: after =>
    (task? data before after s c).toList
      ++ commandsFrom data (c :: before) (advance before s c) after

/-- What commands ask for. -/
def ofCommands (data : FieldData) (start : DrawingState) (cs : List Command) : Plan :=
  commandsFrom data [] start cs

/-- The fields that symbols are drawn for, once for each symbol. -/
def symbolFields : List Command → List Int
  | [] => []
  | c :: after => (symbolField? after c).toList ++ symbolFields after

/-- What a field with data asks for. -/
def fieldTask? (layouts : FieldLayouts) (drawn : List Int) (field : Int × String) : Option Task :=
  if field.2 = "" then none
  else match layouts.get? field.1 with
    | none => some (.dataWithoutLayout field.1)
    | some layout => if field.1 ∈ drawn then none else some (.text field.2 layout)

/-- What fields with data ask for, those that symbols are drawn for left out. -/
def ofFields (data : FieldData) (layouts : FieldLayouts) (drawn : List Int) : Plan :=
  data.filterMap (fieldTask? layouts drawn)

end Plan

end LabelPress
