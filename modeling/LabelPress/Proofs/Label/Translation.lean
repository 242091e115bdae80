import LabelPress.Proofs.Painting.Performed
import LabelPress.Proofs.Stream.Changes

/-!
# Labels moved

A label whose start and origins are moved is the label moved: no size, no choice and no failure
looks at a position. The two canvases are compared task by task, each with what the earlier tasks
have painted on it, so the comparison is between canvases that differ in their primitives.
-/

namespace LabelPress

open LabelPress.Barcode

/-- The change that moves a label and leaves all it says. -/
def Change.shift (dx dy : Int) : Change where
  dx := dx
  dy := dy

/-- The primitive moved. -/
def Primitive.shift (dx dy : Int) : Primitive → Primitive
  | .rect r => .rect { r with x := r.x + dx, y := r.y + dy }
  | .line l => .line
    { l with x1 := l.x1 + dx, y1 := l.y1 + dy, x2 := l.x2 + dx, y2 := l.y2 + dy }
  | .text t => .text { t with x := t.x + dx, y := t.y + dy }

section Shift

variable (dx dy : Int)

/-! ## Symbols -/

namespace Barcode.Symbol

theorem barsFrom_shift (drawn height x y : Int) (p : Pattern) :
    (barsFrom drawn height (y + dy) (x + dx) p).map Primitive.rect =
      ((barsFrom drawn height y x p).map Primitive.rect).map (Primitive.shift dx dy) := by
  induction p generalizing x with
  | nil => rfl
  | cons dark rest ih =>
      have hnext : x + dx + drawn = x + drawn + dx := Int.add_right_comm x dx drawn
      rw [barsFrom, barsFrom, hnext, List.map_append, List.map_append, List.map_append, ih]
      cases dark <;> rfl

theorem caption_shift (s : Symbol) (drawn x y : Int) :
    (s.caption drawn (x + dx) (y + dy)).map Primitive.text =
      ((s.caption drawn x y).map Primitive.text).map (Primitive.shift dx dy) := by
  rw [caption, caption]
  split
  · simp only [Option.map_some, Primitive.shift, Option.some.injEq, Primitive.text.injEq,
      TextLine.mk.injEq, true_and, and_true]
    constructor <;> omega
  · rfl

theorem primitives_shift (s : Symbol) (drawn x y : Int) :
    s.primitives drawn (x + dx) (y + dy) =
      (s.primitives drawn x y).map (Primitive.shift dx dy) := by
  rw [primitives, primitives, bars, bars, barsFrom_shift, caption_shift, List.map_append]
  cases (s.caption drawn x y).map Primitive.text <;> rfl

end Barcode.Symbol

namespace Painting

/-! ## Boxes and texts -/

theorem boxRect_shift (x y : Int) (b : Box) (reverse : Bool) :
    Primitive.rect (boxRect (x + dx) (y + dy) b reverse) =
      (Primitive.rect (boxRect x y b reverse)).shift dx dy := by
  simp only [boxRect]
  cases b.kind <;> cases reverse <;> rfl

theorem ground_shift (text : String) (layout : Layout) (size : Int) :
    ground text ((Change.shift dx dy).layout layout) size =
      (ground text layout size).map (List.map (Primitive.shift dx dy)) := by
  obtain ⟨x, y, height, width, reverse⟩ := layout
  cases reverse with
  | false => rfl
  | true =>
      simp only [ground, Change.layout, if_true]
      cases groundWidth text size <;> rfl

theorem textPrimitives_shift (text : String) (layout : Layout) (path : String) :
    textPrimitives text ((Change.shift dx dy).layout layout) path =
      (textPrimitives text layout path).map (List.map (Primitive.shift dx dy)) := by
  have hheight : ((Change.shift dx dy).layout layout).fontHeight = layout.fontHeight := rfl
  rw [textPrimitives, textPrimitives, hheight]
  cases textSize layout.fontHeight with
  | error fault => rfl
  | ok size =>
      have hline : layout.y + dy + size = layout.y + size + dy :=
        Int.add_right_comm layout.y dy size
      simp only [bind, Except.bind, ground_shift]
      cases ground text layout size with
      | error fault => rfl
      | ok shown =>
          simp only [pure, Except.pure, Except.map, List.map_append, List.map_cons, List.map_nil,
            Primitive.shift, Change.layout, Change.shift, hline]
          rfl

/-- What a task leaves on a canvas: its primitives and its font. -/
def Piece.drawing (p : Piece) : List Primitive × Option String := (p.primitives, p.font)

/-- A moved task comes to its primitives moved, in the same font, or fails alike. -/
theorem piece_shift (files : Files.Tree) (fontPath : Option String) (t : Task) :
    (piece files fontPath ((Change.shift dx dy).task t)).map Piece.drawing =
      (piece files fontPath t).map fun p => (p.primitives.map (Primitive.shift dx dy), p.font) := by
  cases t with
  | box x y b reverse =>
      simp only [Change.task, Change.shift, piece, Except.map, Piece.drawing, boxRect_shift,
        List.map_cons, List.map_nil]
  | text text layout =>
      have htext : (Change.shift dx dy).text text = text := rfl
      simp only [Change.task, piece, textPiece, htext]
      split
      · rfl
      · cases Font.require files fontPath with
        | error fault => rfl
        | ok path =>
            simp only [bind, Except.bind, textPrimitives_shift]
            cases textPrimitives text layout path <;> rfl
  | symbol s x y =>
      simp only [Change.task, piece, symbolPiece]
      cases drawnWidth s.moduleWidth with
      | error fault => rfl
      | ok drawn =>
          have hprimitives := s.primitives_shift dx dy drawn x y
          simp only [bind, Except.bind, pure, Except.pure, Except.map, Piece.drawing, ← hprimitives]
          rfl
  | _ => rfl

end Painting

/-! ## Canvases -/

namespace Canvas

variable (files : Files.Tree) (fontPath : Option String)

/-- Two runs, from a canvas and from the canvas with other primitives on it, leave the same canvas
but for the primitives, where the second has what the first has added, moved, and they end alike. -/
def ShiftedAlike (c : Canvas) (ps : List Primitive) (done moved : Painted) : Prop :=
  ∃ added, done.canvas.primitives = c.primitives ++ added ∧
    moved.canvas =
      { done.canvas with primitives := ps ++ added.map (Primitive.shift dx dy) } ∧
    moved.fault = done.fault

theorem perform_shift (c : Canvas) (ps : List Primitive) (t : Task) :
    ShiftedAlike dx dy c ps (c.perform files fontPath t)
      ({ c with primitives := ps }.perform files fontPath ((Change.shift dx dy).task t)) := by
  have hpiece := Painting.piece_shift dx dy files fontPath t
  have hfail : ∀ fault, ShiftedAlike dx dy c ps { canvas := c, fault := some fault }
      { canvas := { c with primitives := ps }, fault := some fault } :=
    fun fault => ⟨[], by simp, by simp, rfl⟩
  cases hp : Painting.piece files fontPath t with
  | error fault =>
      cases hq : Painting.piece files fontPath ((Change.shift dx dy).task t) with
      | ok q => simp [hp, hq, Except.map] at hpiece
      | error fault' =>
          have hsame : fault' = fault := by simpa [hp, hq, Except.map] using hpiece
          simp only [perform, hp, hq, hsame]
          exact hfail fault
  | ok p =>
      cases hq : Painting.piece files fontPath ((Change.shift dx dy).task t) with
      | error fault => simp [hp, hq, Except.map] at hpiece
      | ok q =>
          have hdrawing : q.primitives = p.primitives.map (Primitive.shift dx dy) ∧
              q.font = p.font := by
            simpa [hp, hq, Except.map, Painting.Piece.drawing] using hpiece
          simp only [perform, hp, hq, add, embed_withPrimitives, hdrawing]
          cases he : c.embed files p.font with
          | error fault => exact hfail fault
          | ok d =>
              refine ⟨p.primitives, ?_, rfl, rfl⟩
              rw [primitives_paint, primitives_embed he]

theorem performAll_shift (c : Canvas) (ps : List Primitive) (p : Plan) :
    ShiftedAlike dx dy c ps (c.performAll files fontPath p)
      ({ c with primitives := ps }.performAll files fontPath
        (p.map (Change.shift dx dy).task)) := by
  induction p generalizing c ps with
  | nil => exact ⟨[], by simp [performAll], by simp [performAll], rfl⟩
  | cons t rest ih =>
      obtain ⟨added, hadded, hmoved, hfault⟩ := perform_shift dx dy files fontPath c ps t
      rw [List.map_cons]
      cases hf : (c.perform files fontPath t).fault with
      | some fault =>
          rw [performAll_cons_of_fault hf, performAll_cons_of_fault (hfault.trans hf)]
          exact ⟨added, hadded, hmoved, hfault⟩
      | none =>
          have hf' := hfault.trans hf
          obtain ⟨later, hlater, hcanvas, hend⟩ :=
            ih (c.perform files fontPath t).canvas (ps ++ added.map (Primitive.shift dx dy))
          refine ⟨added ++ later, ?_, ?_, ?_⟩
          · rw [canvas_performAll_cons hf, hlater, hadded, List.append_assoc]
          · rw [canvas_performAll_cons hf, canvas_performAll_cons hf', hmoved, hcanvas,
              List.map_append, List.append_assoc]
          · rw [fault_performAll_cons hf, fault_performAll_cons hf', hmoved, hend]

end Canvas

namespace Label

/-- A label with its start and its origins moved binds the same texts, draws symbols for the same
fields, lays its fields out in the moved places, and comes to the same fonts and the same fault;
what it paints is what the label paints, moved. -/
theorem paint_shift (files : Files.Tree) (fontPath : Option String) (c : Canvas)
    (start : DrawingState) (cs : List Command) :
    let moved := cs.map (Change.shift dx dy).command
    let start' := (Change.shift dx dy).state start
    let done := c.performAll files fontPath (plan start cs)
    let done' := c.performAll files fontPath (plan start' moved)
    FieldData.ofCommands moved = FieldData.ofCommands cs ∧
      Plan.symbolFields moved = Plan.symbolFields cs ∧
      FieldLayouts.ofCommands start' moved =
        (FieldLayouts.ofCommands start cs).map
          (fun e => (e.1, { e.2 with x := e.2.x + dx, y := e.2.y + dy })) ∧
      ∃ added, done.canvas.primitives = c.primitives ++ added ∧
        done'.canvas =
          { done.canvas with primitives := c.primitives ++ added.map (Primitive.shift dx dy) } ∧
        done'.fault = done.fault := by
  intro moved start' done done'
  have hdata : FieldData.ofCommands moved = FieldData.ofCommands cs := by
    rw [Change.data_command]
    exact List.map_id _
  refine ⟨hdata, Change.symbolFields_command _ cs, Change.layouts_command _ start cs, ?_⟩
  have hall := Canvas.performAll_shift dx dy files fontPath c c.primitives (plan start cs)
  rw [← Change.plan_command] at hall
  exact hall

end Label

end Shift

end LabelPress
