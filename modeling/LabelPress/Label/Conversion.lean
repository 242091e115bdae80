import LabelPress.Command.Reader
import LabelPress.Label.Painting
import LabelPress.Label.Source
import LabelPress.Reported
import LabelPress.Svg.Document

/-!
# From markup to documents

A label's markup is read, its fields are bound and laid out, and its plan is painted on an empty
canvas of its size; nothing outlasts one label.
-/

namespace LabelPress

open LabelPress.Number

namespace Label

/-- The whole plan of a command stream: what its commands ask for, then its fields. -/
def plan (start : DrawingState) (cs : List Command) : Plan :=
  let data := FieldData.ofCommands cs
  Plan.ofCommands data start cs
    ++ Plan.ofFields data (FieldLayouts.ofCommands start cs) (Plan.symbolFields cs)

/-- The report on a label that was painted. -/
def paintedEntry (cs : List Command) (c : Canvas) : Journal.Entry :=
  ⟨.info, .conversion, "Converted ZPL (" ++ toString cs.length ++ " commands, "
    ++ toString (FieldData.ofCommands cs).length ++ " fields, "
    ++ toString (Plan.symbolFields cs).eraseDups.length ++ " barcodes) to "
    ++ integerText c.width ++ "x" ++ integerText c.height⟩

/-- A canvas with a command stream painted on it. -/
def paint (files : Files.Tree) (fontPath : Option String) (c : Canvas) (cs : List Command) :
    Painted :=
  c.performAll files fontPath (plan .initial cs)

/-- The canvas of a command stream, with the reports of all passes. -/
def paintReported (files : Files.Tree) (fontPath : Option String) (c : Canvas)
    (cs : List Command) : Reported Canvas :=
  let painted := paint files fontPath c cs
  let journal := Command.readEntry cs :: FieldData.journal cs
    ++ FieldLayouts.entry (FieldLayouts.ofCommands .initial cs) :: painted.journal
  match painted.fault with
  | some fault => ⟨journal, .error fault⟩
  | none => ⟨journal ++ [paintedEntry cs painted.canvas], .ok painted.canvas⟩

/-- The font that a label draws with, with the report on a selector that chooses none. A folder that
turned out unsuitable is a fault once the font is chosen. -/
def chooseFont (site : Font.Site) (selector : Text.CodePoints)
    (fontsDir : Except Fault (Option String)) : Reported (Option String) :=
  match fontsDir with
  | .ok dir => ⟨Font.resolveJournal site dir selector, Font.resolve site dir selector⟩
  | .error fault =>
    ⟨Font.resolveJournal site none selector,
      (Font.resolve site none selector).bind fun _ => .error fault⟩

/-- The canvas of a label. -/
def build (site : Font.Site) (r : LabelSource) : Reported Canvas :=
  (Reported.of r.size).andThen fun size =>
  (Reported.of r.font).andThen fun selector =>
  (chooseFont site selector r.fontsDir).andThen fun fontPath =>
  (Reported.of r.fontsDir).andThen fun fontsDir =>
  (Reported.of (Command.ofMarkup r.markup)).andThen fun cs =>
  paintReported site.files fontPath
    { width := size.1, height := size.2, fontsDir := site.fontsDirOr fontsDir } cs

/-- The document of a canvas, with its report. -/
def document (files : Files.Tree) (c : Canvas) : Reported String :=
  match Svg.render files c with
  | .error fault => ⟨[], .error fault⟩
  | .ok text => ⟨[Svg.renderEntry c], .ok text⟩

theorem result_document (files : Files.Tree) (c : Canvas) :
    (document files c).result = Svg.render files c := by
  unfold document
  generalize Svg.render files c = rendered
  cases rendered <;> rfl

/-- The document of a label. -/
def convert (site : Font.Site) (r : LabelSource) : Reported String :=
  (build site r).andThen (document site.files)

end Label

end LabelPress
