import LabelPress.Canvas.Basic
import LabelPress.Label.Plan

/-!
# Painting

A task gives its primitives all at once or fails and gives none, so a failure never leaves half of
an item on the canvas. Painting a plan stops at the first task that fails.
-/

namespace LabelPress

open LabelPress.Barcode LabelPress.Number

namespace Painting

/-- The size of a text relative to the height of its font, and the width of a character relative to
the size. -/
def scale : Binary64 := .ofRatio false 3 5

/-- The size of a text in a font of a height. -/
def textSize (fontHeight : Int) : Except Fault Int := do
  ((← Binary64.ofInt fontHeight).mul scale).nearest

/-- The width of the ground under a reversed text. -/
def groundWidth (text : String) (size : Int) : Except Fault Int := do
  let character := (← Binary64.ofInt size).mul scale
  ((← Binary64.ofInt text.length).mul character).truncate

/-- The black ground under a reversed text. -/
def ground (text : String) (layout : Layout) (size : Int) : Except Fault (List Primitive) :=
  if layout.reverse then do
    return [.rect
      { x := layout.x, y := layout.y, width := ← groundWidth text size,
        height := layout.fontHeight, fill := Color.black.name, stroke := Color.none.name }]
  else .ok []

/-- The primitives of a text in a layout: its ground, if it is reversed, and its line. -/
def textPrimitives (text : String) (layout : Layout) (path : String) :
    Except Fault (List Primitive) := do
  let size ← textSize layout.fontHeight
  let ground ← ground text layout size
  let color := if layout.reverse then Color.white else Color.black
  return ground ++ [.text
    { text, x := layout.x, y := layout.y + size, size, color := color.name,
      family := Font.family (some path), fontPath := some path }]

/-- The greatest width of the line around a reversed box that is filled. -/
def maxReverseStroke : Int := 5

/-- The rectangle of a box at a position. A reversed box is white inside, and its line is black. -/
def boxRect (x y : Int) (b : Box) (reverse : Bool) : Rect :=
  let r : Rect := { x, y, width := b.width, height := b.height }
  match b.kind, reverse with
  | .filled, true =>
    { r with
      fill := Color.white.name, stroke := Color.black.name,
      strokeWidth := min b.thickness maxReverseStroke }
  | .filled, false => { r with fill := Color.black.name, stroke := Color.none.name }
  | .line, true => { r with fill := Color.white.name, stroke := Color.none.name }
  | .line, false => { r with fill := Color.black.name, stroke := Color.none.name }
  | .border, true =>
    { r with fill := Color.white.name, stroke := Color.black.name, strokeWidth := b.thickness }
  | .border, false =>
    { r with fill := Color.none.name, stroke := Color.black.name, strokeWidth := b.thickness }

/-- The report on a box. -/
def boxEntry (x y : Int) (b : Box) (reverse : Bool) : Journal.Entry :=
  ⟨.debug, .passes, b.kind.name .english ++ " " ++ integerText b.width ++ "x"
    ++ integerText b.height ++ " (thickness " ++ integerText b.thickness ++ ") at ("
    ++ integerText x ++ ", " ++ integerText y ++ ")" ++ (if reverse then " reversed" else "")⟩

/-- What a task comes to: its primitives, the font that it draws with, and its reports. -/
structure Piece where
  primitives : List Primitive := []
  font : Option String := none
  journal : List Journal.Entry := []

/-- What a text in a layout comes to. An empty text needs no font. -/
def textPiece (files : Files.Tree) (fontPath : Option String) (text : String) (layout : Layout) :
    Except Fault Piece :=
  if text = "" then .ok {}
  else do
    let path ← Font.require files fontPath
    return { primitives := ← textPrimitives text layout path, font := some path }

/-- What a symbol at a position comes to. -/
def symbolPiece (s : Symbol) (x y : Int) : Except Fault Piece := do
  let drawn ← drawnWidth s.moduleWidth
  return { primitives := s.primitives drawn x y, journal := s.journal drawn x y }

/-- A report of the passes. -/
def note (text : String) : Piece := { journal := [⟨.debug, .passes, text⟩] }

/-- What a task comes to. -/
def piece (files : Files.Tree) (fontPath : Option String) : Task → Except Fault Piece
  | .box x y b reverse =>
    .ok { primitives := [.rect (boxRect x y b reverse)], journal := [boxEntry x y b reverse] }
  | .text text layout => textPiece files fontPath text layout
  | .symbol s x y => symbolPiece s x y
  | .symbolWithoutField place =>
    .ok (note ("^BC at command " ++ toString place ++ " has no following ^FN"))
  | .symbolWithoutData field =>
    .ok (note ("Barcode field " ++ integerText field ++ " has no data, skipped"))
  | .dataWithoutLayout field =>
    .ok (note ("Field " ++ integerText field ++ " has data but no layout, skipped"))

end Painting

/-- A canvas with the reports on what was done to it, and the failure that ended the work, if one
did. -/
structure Painted where
  canvas : Canvas
  journal : List Journal.Entry := []
  fault : Option Fault := none
deriving Repr

namespace Painted

/-- The work with more done to it, unless it has failed. -/
def andThen (p : Painted) (next : Canvas → Painted) : Painted :=
  match p.fault with
  | some _ => p
  | none =>
    let q := next p.canvas
    { q with journal := p.journal ++ q.journal }

theorem andThen_of_fault {p : Painted} {fault : Fault} (h : p.fault = some fault)
    (next : Canvas → Painted) : p.andThen next = p := by
  simp [andThen, h]

end Painted

namespace Canvas

/-- The canvas with a piece on it. -/
def add (c : Canvas) (files : Files.Tree) (piece : Painting.Piece) : Painted :=
  match c.embed files piece.font with
  | .error fault => { canvas := c, fault := some fault }
  | .ok d =>
    { canvas := d.paint piece.primitives,
      journal := piece.journal ++ c.embedJournal files piece.font }

/-- The canvas with a task carried out. -/
def perform (files : Files.Tree) (fontPath : Option String) (c : Canvas) (t : Task) : Painted :=
  match Painting.piece files fontPath t with
  | .error fault => { canvas := c, fault := some fault }
  | .ok piece => c.add files piece

/-- The canvas with the tasks of a plan carried out up to the first that fails. -/
def performAll (files : Files.Tree) (fontPath : Option String) (c : Canvas) : Plan → Painted
  | [] => { canvas := c }
  | t :: rest =>
    (c.perform files fontPath t).andThen fun c => performAll files fontPath c rest

/-- The canvas with a text painted in an embedded font, which need not exist. -/
def drawText (files : Files.Tree) (c : Canvas) (line : TextLine) : Painted :=
  let line := { line with family := Font.family line.fontPath }
  c.add files { primitives := [.text line], font := line.fontPath }

end Canvas

end LabelPress
