import LabelPress.Label.Conversion

/-!
# Desks

A canvas is worked on beside files that may change between two operations. Any operation may fail,
and the work goes on with what it left.
-/

namespace LabelPress

/-- A canvas and the files beside it. -/
structure Desk where
  canvas : Canvas
  files : Files.Tree

namespace Desk

/-- Something done at a desk. -/
inductive Operation
  /-- Paint a primitive. -/
  | paint (primitive : Primitive)
  /-- Paint a text in a font to be embedded, which need not exist. -/
  | drawText (line : TextLine)
  /-- Carry out a plan with a font. -/
  | carryOut (fontPath : Option String) (plan : Plan)
  /-- Write the document of the canvas. -/
  | document
  /-- Put a file or a folder where a path leads. -/
  | write (path : String) (node : Files.Node)
  /-- Remove what a path leads to. -/
  | delete (path : String)

/-- What an operation leaves, its reports, and the document if it wrote one. -/
structure Outcome where
  desk : Desk
  journal : List Journal.Entry := []
  result : Except Fault (Option String) := .ok none

/-- What painting leaves. -/
def painted (d : Desk) (p : Painted) : Outcome where
  desk := { d with canvas := p.canvas }
  journal := p.journal
  result :=
    match p.fault with
    | some fault => .error fault
    | none => .ok none

/-- What an operation leaves. -/
def act (d : Desk) : Operation → Outcome
  | .paint primitive => { desk := { d with canvas := d.canvas.paint [primitive] } }
  | .drawText line => d.painted (d.canvas.drawText d.files line)
  | .carryOut fontPath plan => d.painted (d.canvas.performAll d.files fontPath plan)
  | .document =>
    let written := Label.document d.files d.canvas
    { desk := d, journal := written.journal, result := written.result.map some }
  | .write path node => { desk := { d with files := d.files.write path node } }
  | .delete path => { desk := { d with files := d.files.delete path } }

/-- The desk after some operations. -/
def run (d : Desk) (operations : List Operation) : Desk :=
  operations.foldl (fun d o => (d.act o).desk) d

@[simp] theorem run_cons (d : Desk) (o : Operation) (os : List Operation) :
    d.run (o :: os) = (d.act o).desk.run os := rfl

@[simp] theorem run_append (d : Desk) (os ps : List Operation) :
    d.run (os ++ ps) = (d.run os).run ps := List.foldl_append

end Desk

end LabelPress
