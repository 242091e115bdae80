import LabelPress.Label.Painting
import LabelPress.Proofs.Canvas.Registry

/-!
# Painting stroke by stroke

A canvas can be worked on in single strokes: something is looked for or computed, a font is
embedded, one primitive is put on. A failure ends the work there and then, and what has been put on
stays. A text with a ground and a symbol take several strokes that show, yet the work always comes
to what the plan comes to whose tasks are carried out whole or not at all: all that can fail in an
item is done before its first primitive is put on. What is done after that has been done before, as
the width of a module, or cannot fail any more, as the reading of a font file that was found.
-/

namespace LabelPress

open Painting LabelPress.Barcode

/-- Work on a canvas. What was done before a failure stays done. -/
abbrev Brush := EStateM Fault Canvas

/-- How work ends, with the canvas that it leaves. -/
def Painted.outcome (p : Painted) : EStateM.Result Fault Canvas Unit :=
  match p.fault with
  | none => .ok () p.canvas
  | some fault => .error fault p.canvas

namespace Brush

/-! ## The strokes -/

section Strokes

variable {α : Type}

/-- Something that is needed to go on. -/
def need (result : Except Fault α) : Brush α := fun c =>
  match result with
  | .ok a => .ok a c
  | .error fault => .error fault c

/-- Put a primitive on. -/
def put (p : Primitive) : Brush Unit := fun c => .ok () (c.paint [p])

/-- Put primitives on, one by one. -/
def putAll : List Primitive → Brush Unit
  | [] => pure ()
  | p :: rest => do
    put p
    putAll rest

/-- Embed the font of a path. -/
def embed (files : Files.Tree) (path : Option String) : Brush Unit := fun c =>
  match c.embed files path with
  | .ok d => .ok () d
  | .error fault => .error fault c

/-- The ground of a width under a reversed text. -/
def groundRect (layout : Layout) (width : Int) : Rect :=
  { x := layout.x, y := layout.y, width, height := layout.fontHeight, fill := Color.black.name,
    stroke := Color.none.name }

/-- Paint the ground of a text, if it is reversed. -/
def ground (line : String) (layout : Layout) (size : Int) : Brush Unit :=
  if layout.reverse then do
    let width ← need (groundWidth line size)
    put (.rect (groundRect layout width))
  else pure ()

/-- The line of a text of a size. -/
def textLine (text : String) (layout : Layout) (size : Int) (path : String) : TextLine :=
  { text, x := layout.x, y := layout.y + size, size,
    color := (if layout.reverse then Color.white else Color.black).name,
    family := Font.family (some path), fontPath := some path }

/-- Paint a text in the font of a path. The ground of a reversed one is on the canvas before the
font is embedded. -/
def textIn (files : Files.Tree) (path : String) (line : String) (layout : Layout) : Brush Unit := do
  let size ← need (textSize layout.fontHeight)
  ground line layout size
  embed files (some path)
  put (.text (textLine line layout size path))

/-- Paint a text. An empty one needs no font. -/
def text (files : Files.Tree) (fontPath : Option String) (line : String) (layout : Layout) :
    Brush Unit :=
  if line = "" then pure ()
  else do
    let path ← need (Font.require files fontPath)
    textIn files path line layout

/-- Paint the payload of a symbol, if it is printed. The width of a module is computed once more, to
centre it. -/
def caption (s : Symbol) (x y : Int) : Brush Unit :=
  if s.hasCaption then do
    let drawn ← need (drawnWidth s.moduleWidth)
    putAll ((s.caption drawn x y).map .text).toList
  else pure ()

/-- Paint a symbol, bar by bar, and under the bars its payload. -/
def symbol (s : Symbol) (x y : Int) : Brush Unit := do
  let drawn ← need (drawnWidth s.moduleWidth)
  putAll ((s.bars drawn x y).map .rect)
  caption s x y

/-- Do what a task asks for. -/
def task (files : Files.Tree) (fontPath : Option String) : Task → Brush Unit
  | .box x y b reverse => put (.rect (boxRect x y b reverse))
  | .text line layout => text files fontPath line layout
  | .symbol s x y => symbol s x y
  | _ => pure ()

/-- Do what tasks ask for, one after the other. -/
def tasks (files : Files.Tree) (fontPath : Option String) : Plan → Brush Unit
  | [] => pure ()
  | t :: rest => do
    task files fontPath t
    tasks files fontPath rest

/-- Paint what the commands from a place on ask for, each before the next one is looked at. -/
def commandsFrom (files : Files.Tree) (fontPath : Option String) (data : FieldData)
    (before : List Command) (s : DrawingState) : List Command → Brush Unit
  | [] => pure ()
  | c :: after => do
    tasks files fontPath (Plan.task? data before after s c).toList
    commandsFrom files fontPath data (c :: before) (Plan.advance before s c) after

/-- Paint what the commands of a stream ask for. -/
def commands (files : Files.Tree) (fontPath : Option String) (data : FieldData)
    (start : DrawingState) (cs : List Command) : Brush Unit :=
  commandsFrom files fontPath data [] start cs

/-- Paint what fields ask for, one field after the other. -/
def fields (files : Files.Tree) (fontPath : Option String) (layouts : FieldLayouts)
    (drawn : List Int) : FieldData → Brush Unit
  | [] => pure ()
  | field :: rest => do
    tasks files fontPath (Plan.fieldTask? layouts drawn field).toList
    fields files fontPath layouts drawn rest

end Strokes

/-! ## What strokes leave -/

section Leave

variable {α β : Type} {files : Files.Tree} {fontPath : Option String} {c d : Canvas} {fault : Fault}

theorem bind_of_ok {work : Brush α} {a : α} (h : work c = .ok a d) (next : α → Brush β) :
    (work >>= next) c = next a d := by
  simp only [bind, EStateM.bind, h]

theorem bind_of_error {work : Brush α} (h : work c = .error fault d) (next : α → Brush β) :
    (work >>= next) c = .error fault d := by
  simp only [bind, EStateM.bind, h]

theorem pure_apply (a : α) (c : Canvas) : (pure a : Brush α) c = .ok a c := rfl

theorem need_ok {result : Except Fault α} {a : α} (h : result = .ok a) (c : Canvas) :
    need result c = .ok a c := by
  subst h
  rfl

theorem need_error {result : Except Fault α} (h : result = .error fault) (c : Canvas) :
    need result c = .error fault c := by
  subst h
  rfl

theorem embed_ok {path : Option String} (h : c.embed files path = .ok d) :
    embed files path c = .ok () d := by
  rw [embed, h]

theorem putAll_apply (ps : List Primitive) (c : Canvas) : putAll ps c = .ok () (c.paint ps) := by
  induction ps generalizing c with
  | nil => rw [putAll, pure_apply, Canvas.paint_nil]
  | cons p rest ih =>
      calc
        putAll (p :: rest) c = putAll rest (c.paint [p]) := bind_of_ok rfl _
        _ = .ok () (c.paint (p :: rest)) := by
          rw [ih, Canvas.paint_paint, List.singleton_append]

/-- A font that can be embedded can be embedded as well once more is on the canvas. -/
theorem embed_paint (h : c.embed files fontPath = .ok d) (ps : List Primitive) :
    (c.paint ps).embed files fontPath = .ok (d.paint ps) := by
  have hmore := Canvas.embed_withPrimitives files c (c.primitives ++ ps) fontPath
  rw [h, ← Canvas.primitives_embed h] at hmore
  rw [Canvas.paint, ← Canvas.primitives_embed h]
  exact hmore

end Leave

/-! ## Items -/

section Items

variable {files : Files.Tree} {fontPath : Option String} {c : Canvas} {fault : Fault}

/-- The canvas after a task whose piece is known, which draws with no font. -/
theorem outcome_perform_of_no_font {t : Task} {p : Piece} (hp : piece files fontPath t = .ok p)
    (hfont : p.font = none) :
    (c.perform files fontPath t).outcome = .ok () (c.paint p.primitives) := by
  simp only [Canvas.perform, hp, Canvas.add, hfont, Canvas.embed, Painted.outcome]

theorem outcome_perform_of_error {t : Task} (hp : piece files fontPath t = .error fault) :
    (c.perform files fontPath t).outcome = .error fault c := by
  simp only [Canvas.perform, hp, Painted.outcome]

/-- The ground is put on whole, or its width cannot be computed. -/
theorem ground_cases (line : String) (layout : Layout) (size : Int) (c : Canvas) :
    (∃ ps, Painting.ground line layout size = .ok ps ∧
      ground line layout size c = .ok () (c.paint ps)) ∨
    ∃ fault, Painting.ground line layout size = .error fault ∧
      ground line layout size c = .error fault c := by
  cases hreverse : layout.reverse with
  | false =>
      refine Or.inl ⟨[], by rw [Painting.ground, hreverse]; rfl, ?_⟩
      rw [ground, hreverse, Canvas.paint_nil]
      rfl
  | true =>
      cases hwidth : groundWidth line size with
      | error fault =>
          refine Or.inr ⟨fault, by rw [Painting.ground, hreverse, hwidth]; rfl, ?_⟩
          rw [ground, hreverse]
          exact bind_of_error (need_error hwidth c) _
      | ok width =>
          refine Or.inl ⟨[.rect (groundRect layout width)], ?_, ?_⟩
          · rw [Painting.ground, hreverse, hwidth]
            rfl
          · rw [ground, hreverse]
            exact bind_of_ok (need_ok hwidth c) _

/-- A text is painted whole or not at all, although its ground is on the canvas before its font is
embedded: a font file that was found can be embedded. -/
theorem textIn_cases {path : String} (hfile : files.isFile path = true) (line : String)
    (layout : Layout) (c : Canvas) :
    (∃ ps d, textPrimitives line layout path = .ok ps ∧ c.embed files (some path) = .ok d ∧
      textIn files path line layout c = .ok () (d.paint ps)) ∨
    ∃ fault, textPrimitives line layout path = .error fault ∧
      textIn files path line layout c = .error fault c := by
  rw [textPrimitives, textIn]
  cases hsize : textSize layout.fontHeight with
  | error fault => exact Or.inr ⟨fault, rfl, bind_of_error (need_error rfl c) _⟩
  | ok size =>
      rw [bind_of_ok (need_ok rfl c)]
      rcases ground_cases line layout size c with ⟨ps, hps, hput⟩ | ⟨fault, hps, hput⟩
      · obtain ⟨d, hd⟩ := exists_embed hfile c
        refine Or.inl ⟨ps ++ [.text (textLine line layout size path)], d, ?_, hd, ?_⟩
        · simp only [hps, bind, Except.bind, pure, Except.pure, textLine]
        · rw [bind_of_ok hput, bind_of_ok (embed_ok (embed_paint hd ps)), put, Canvas.paint_paint]
      · refine Or.inr ⟨fault, ?_, bind_of_error hput _⟩
        simp only [hps, bind, Except.bind]

theorem text_eq_outcome (files : Files.Tree) (fontPath : Option String) (line : String)
    (layout : Layout) (c : Canvas) :
    text files fontPath line layout c =
      (c.perform files fontPath (.text line layout)).outcome := by
  by_cases hline : line = ""
  · have hpiece : piece files fontPath (.text line layout) = .ok {} := if_pos hline
    rw [text, if_pos hline, outcome_perform_of_no_font hpiece rfl, Canvas.paint_nil, pure_apply]
  rw [text, if_neg hline]
  cases hrequire : Font.require files fontPath with
  | error fault =>
      have hpiece : piece files fontPath (.text line layout) = .error fault := by
        simp only [piece, textPiece, if_neg hline, hrequire, bind, Except.bind]
      rw [outcome_perform_of_error hpiece, bind_of_error (need_error rfl c)]
  | ok path =>
      obtain ⟨-, hfile⟩ := Canvas.require_eq_ok_iff.mp hrequire
      rw [bind_of_ok (need_ok rfl c)]
      rcases textIn_cases hfile line layout c with ⟨ps, d, hps, hd, hput⟩ | ⟨fault, hps, hfault⟩
      · have hpiece : piece files fontPath (.text line layout) =
            .ok { primitives := ps, font := some path } := by
          simp only [piece, textPiece, if_neg hline, hrequire, hps, bind, Except.bind, pure,
            Except.pure]
        rw [hput]
        simp only [Canvas.perform, hpiece, Canvas.add, hd, Painted.outcome]
      · have hpiece : piece files fontPath (.text line layout) = .error fault := by
          simp only [piece, textPiece, if_neg hline, hrequire, hps, bind, Except.bind]
        rw [outcome_perform_of_error hpiece, hfault]

/-- Once the width of a module is known the payload under the bars is put on as well. -/
theorem caption_apply {s : Symbol} {drawn : Int} (h : drawnWidth s.moduleWidth = .ok drawn)
    (x y : Int) (c : Canvas) :
    caption s x y c = .ok () (c.paint ((s.caption drawn x y).map .text).toList) := by
  rw [caption]
  split
  · rw [bind_of_ok (need_ok h c), putAll_apply]
  · next hno =>
      rw [Symbol.caption, if_neg hno, Option.map_none, Option.toList_none, Canvas.paint_nil, pure_apply]

/-- A symbol is painted whole or not at all. -/
theorem symbol_eq_outcome (files : Files.Tree) (fontPath : Option String) (s : Symbol) (x y : Int)
    (c : Canvas) :
    symbol s x y c = (c.perform files fontPath (.symbol s x y)).outcome := by
  rw [symbol]
  cases hdrawn : drawnWidth s.moduleWidth with
  | error fault =>
      have hpiece : piece files fontPath (.symbol s x y) = .error fault := by
        simp only [piece, symbolPiece, hdrawn, bind, Except.bind]
      rw [outcome_perform_of_error hpiece, bind_of_error (need_error rfl c)]
  | ok drawn =>
      have hpiece : piece files fontPath (.symbol s x y) = .ok
          { primitives := s.primitives drawn x y, journal := s.journal drawn x y } := by
        simp only [piece, symbolPiece, hdrawn, bind, Except.bind, pure, Except.pure]
      rw [outcome_perform_of_no_font hpiece rfl, bind_of_ok (need_ok rfl c),
        bind_of_ok (putAll_apply _ c), caption_apply hdrawn, Canvas.paint_paint, Symbol.primitives]

/-- A task comes to the same stroke by stroke as at once. -/
theorem task_eq_outcome (files : Files.Tree) (fontPath : Option String) (t : Task) (c : Canvas) :
    task files fontPath t c = (c.perform files fontPath t).outcome := by
  cases t with
  | text line layout => exact text_eq_outcome files fontPath line layout c
  | symbol s x y => exact symbol_eq_outcome files fontPath s x y c
  | box x y b reverse => rfl
  | _ => exact congrArg (EStateM.Result.ok ()) (Canvas.paint_nil c).symm

end Items

/-! ## One task after the other -/

section Plans

variable (files : Files.Tree) (fontPath : Option String)

/-- A plan comes to the same stroke by stroke as task by task. -/
theorem tasks_eq_outcome (p : Plan) (c : Canvas) :
    tasks files fontPath p c = (c.performAll files fontPath p).outcome := by
  induction p generalizing c with
  | nil => rfl
  | cons t rest ih =>
      have htask := task_eq_outcome files fontPath t c
      rw [tasks, Canvas.performAll]
      cases hfault : (c.perform files fontPath t).fault with
      | some fault =>
          rw [Painted.outcome, hfault] at htask
          rw [bind_of_error htask, Painted.andThen_of_fault hfault, Painted.outcome, hfault]
      | none =>
          rw [Painted.outcome, hfault] at htask
          rw [bind_of_ok htask, ih, Painted.andThen, hfault]
          rfl

theorem tasks_append (p q : Plan) :
    tasks files fontPath (p ++ q) = (do
      tasks files fontPath p
      tasks files fontPath q) := by
  induction p with
  | nil => rw [List.nil_append, tasks, pure_bind]
  | cons t rest ih => rw [List.cons_append, tasks, ih, tasks, bind_assoc]

/-- Painting while commands are gone through comes to what their plan comes to. -/
theorem commandsFrom_eq_tasks (data : FieldData) (before : List Command) (s : DrawingState)
    (cs : List Command) :
    commandsFrom files fontPath data before s cs =
      tasks files fontPath (Plan.commandsFrom data before s cs) := by
  induction cs generalizing before s with
  | nil => rfl
  | cons c after ih => rw [commandsFrom, ih, Plan.commandsFrom, tasks_append]

/-- Painting while fields are gone through comes to what their plan comes to. -/
theorem fields_eq_tasks (layouts : FieldLayouts) (drawn : List Int) (data : FieldData) :
    fields files fontPath layouts drawn data =
      tasks files fontPath (Plan.ofFields data layouts drawn) := by
  induction data with
  | nil => rfl
  | cons field rest ih =>
      rw [fields, ih, ← tasks_append, Plan.ofFields, Plan.ofFields,
        List.filterMap_eq_flatMap_toList, List.filterMap_eq_flatMap_toList, List.flatMap_cons]

/-- The commands of a stream come to the same stroke by stroke as by the plan. -/
theorem commands_eq_outcome (data : FieldData) (start : DrawingState) (cs : List Command)
    (c : Canvas) :
    commands files fontPath data start cs c =
      (c.performAll files fontPath (Plan.ofCommands data start cs)).outcome := by
  rw [commands, commandsFrom_eq_tasks, tasks_eq_outcome, Plan.ofCommands]

/-- The fields of a label come to the same stroke by stroke as by the plan. -/
theorem fields_eq_outcome (data : FieldData) (layouts : FieldLayouts) (drawn : List Int)
    (c : Canvas) :
    fields files fontPath layouts drawn data c =
      (c.performAll files fontPath (Plan.ofFields data layouts drawn)).outcome := by
  rw [fields_eq_tasks, tasks_eq_outcome]

end Plans

end Brush

end LabelPress
