import LabelPress.Number.Fit
import LabelPress.Settings.Configuration

/-!
# What a label is made from

A label has markup, a size, a font and a folder of fonts. All but the markup are settings, and a
setting may be of any kind; one of a wrong kind is a fault only where the label needs it.
-/

namespace LabelPress

open LabelPress.Number LabelPress.Settings

/-- A length in inches in pixels at a resolution, a half rounded up. -/
def pixelSize (inches dpi : Quantity) : Except Fault Int := do
  (← inches.times dpi).roundUpHalf

/-- The markup of a label and its settings, each of which may have turned out unsuitable. -/
structure LabelSource where
  markup : String
  size : Except Fault (Int × Int)
  font : Except Fault Text.CodePoints
  fontsDir : Except Fault (Option String)

namespace LabelSource

/-- The bytes that each code point of a text takes: as many as its widest one needs. -/
def pointSize (s : Text.CodePoints) : Nat :=
  if s.all (·.value ≤ 0xFF) then 1 else if s.all (·.value ≤ 0xFFFF) then 2 else 4

/-- What a whole number repeats instead of multiplying it. -/
inductive Sequence
  | text (s : Text.CodePoints)
  | list (length : Nat)

namespace Sequence

/-- The sequence that a setting is. -/
def ofValue? : Value → Option Sequence
  | .text s => some (.text s)
  | .list items => some (.list items.length)
  | _ => none

/-- The kind of values that it is. -/
def kindName : Sequence → String
  | text s => (Value.text s).kindName
  | list _ => (Value.list []).kindName

/-- The fault of a sequence repeated where a length is wanted. It may be too long for that
already. -/
def repeated (s : Sequence) (times : Nat) : Fault :=
  match s with
  | text points =>
    let length := points.length * times
    if !Word.size.holds length then .textTooLong
    else if fitsMemory (pointSize points * length) then .notALength s.kindName
    else .outOfMemory
  | list length =>
    if fitsMemory (8 * (length * times)) then .notALength s.kindName else .outOfMemory

/-- The fault of a sequence multiplied by a setting where a length is wanted. -/
def multiplied (s : Sequence) (factor : Value) : Fault :=
  match factor.integer? with
  | none => .noRepetition factor.kindName
  | some n =>
    match Word.index.fit n with
    | .error fault => fault
    | .ok n => s.repeated n.toNat

end Sequence

/-- The fault of a length in inches and a resolution that are not both quantities. -/
def noLength (inches dpi : Value) : Fault :=
  match Sequence.ofValue? inches, Sequence.ofValue? dpi with
  | some s, _ => s.multiplied dpi
  | none, some s => s.multiplied inches
  | none, none => .noProduct inches.kindName dpi.kindName

/-- A length in pixels by its settings. -/
def lengthOf (inches dpi : Value) : Except Fault Int :=
  match inches.quantity?, dpi.quantity? with
  | some x, some d => pixelSize x d
  | _, _ => .error (noLength inches dpi)

/-- The text that a setting is where a path is wanted. -/
def pathOf : Value → Except Fault Text.CodePoints
  | .text s => .ok s
  | v => .error (.notAPath v.kindName)

/-- A markup with the settings of a configuration. -/
def ofSettings (markup : String) (c : Configuration) : LabelSource where
  markup := markup
  size := do
    let dpi := c.valueOrDefault "dpi"
    return (← lengthOf (c.valueOrDefault "width_inches") dpi,
      ← lengthOf (c.valueOrDefault "height_inches") dpi)
  font := pathOf (c.valueOrDefault "font_renderer")
  fontsDir :=
    match c.valueOf "fonts_dir" with
    | .null => .ok none
    | v => (pathOf v).map fun s => some s.replaced

end LabelSource

end LabelPress
