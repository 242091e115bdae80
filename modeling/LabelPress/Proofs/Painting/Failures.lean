import LabelPress.Proofs.Painting.Strokes
import LabelPress.Proofs.Stream.Visits

/-!
# Where painting stops

Painting fails for a font that is missing or for a number that is too large to be scaled, and then
it stops at one place of the stream. What was asked for before that place is complete; of what was
asked for there nothing is left, although it is painted stroke by stroke.
-/

namespace LabelPress

open Painting LabelPress.Barcode LabelPress.Number

variable {files : Files.Tree} {fontPath : Option String} {c : Canvas} {fault : Fault}

/-! ## Why a task fails -/

/-- A text that is not empty fails for a font that is missing or for a size that cannot be computed,
and a symbol for a module whose width cannot be. Nothing else fails. -/
def Task.FailsWith (files : Files.Tree) (fontPath : Option String) (fault : Fault) : Task → Prop
  | .text line layout =>
    line ≠ "" ∧ (Font.Missing files fontPath ∧ fault = .fontNotFound fontPath ∨
      ¬ TextInRange line layout ∧ fault.IsTooLarge)
  | .symbol s _ _ => ¬ FitsFloat s.moduleWidth ∧ fault = .integerBeyondFloat
  | _ => False

/-- A font that is not missing is a file. -/
theorem Font.exists_isFile (h : ¬ Font.Missing files fontPath) :
    ∃ path, fontPath = some path ∧ files.isFile path = true := by
  simp only [Font.Missing, not_forall, not_or, Bool.not_eq_false] at h
  obtain ⟨path, hpath, -, hfile⟩ := h
  exact ⟨path, hpath, hfile⟩

theorem failsWith_of_perform_text {line : String} {layout : Layout}
    (h : (c.perform files fontPath (.text line layout)).fault = some fault) :
    (Task.text line layout).FailsWith files fontPath fault := by
  by_cases hline : line = ""
  · rw [Canvas.perform, piece, textPiece, if_pos hline] at h
    cases h
  refine ⟨hline, ?_⟩
  by_cases hfont : Font.Missing files fontPath
  · have hdraws : (Task.text line layout).drawsText = true := decide_eq_true hline
    have hmissing := fault_perform_of_drawsText hfont hdraws c
    exact Or.inl ⟨hfont, Option.some.inj (h.symm.trans hmissing)⟩
  · obtain ⟨path, rfl, hfile⟩ := Font.exists_isFile hfont
    have hrange : ¬ TextInRange line layout := by
      intro hrange
      have hnone : (c.perform files (some path) (.text line layout)).fault = none :=
        (fault_perform_iff hfile c _).mpr fun _ => hrange
      rw [hnone] at h
      cases h
    cases hps : textPrimitives line layout path with
    | ok ps => exact absurd (exists_textPrimitives_iff.mp ⟨ps, hps⟩) hrange
    | error cause =>
        simp only [Canvas.perform, piece, textPiece, if_neg hline, require_of_isFile hfile, hps,
          bind, Except.bind] at h
        exact Or.inr ⟨hrange, Option.some.inj h ▸ isTooLarge_of_textPrimitives hps⟩

theorem failsWith_of_perform_symbol {s : Symbol} {x y : Int}
    (h : (c.perform files fontPath (.symbol s x y)).fault = some fault) :
    (Task.symbol s x y).FailsWith files fontPath fault := by
  rcases drawnWidth_cases s.moduleWidth with ⟨hn, herror⟩ | ⟨-, drawn, hdrawn⟩
  · simp only [Canvas.perform, piece, symbolPiece, herror, bind, Except.bind] at h
    exact ⟨hn, (Option.some.inj h).symm⟩
  · simp only [Canvas.perform, piece, symbolPiece, hdrawn, bind, Except.bind, pure, Except.pure,
      Canvas.add, Canvas.embed] at h
    cases h

theorem failsWith_of_perform {t : Task} (h : (c.perform files fontPath t).fault = some fault) :
    t.FailsWith files fontPath fault := by
  cases t with
  | text line layout => exact failsWith_of_perform_text h
  | symbol s x y => exact failsWith_of_perform_symbol h
  | _ =>
      simp only [Canvas.perform, piece, Canvas.add, Canvas.embed, note] at h
      cases h

/-! ## Complete items -/

/-- The primitives that an item is made of if it is complete: a reversed text has its ground and its
line, and a symbol has all its bars and, if that is printed, its payload. -/
inductive Complete (fontPath : Option String) : Task → List Primitive → Prop
  | box (x y : Int) (b : Box) (reverse : Bool) :
      Complete fontPath (.box x y b reverse) [.rect (boxRect x y b reverse)]
  | emptyText (layout : Layout) : Complete fontPath (.text "" layout) []
  | text {line : String} {layout : Layout} {path : String} {size : Int} (hline : line ≠ "")
      (hpath : fontPath = some path) (hreverse : layout.reverse = false)
      (hsize : textSize layout.fontHeight = .ok size) :
      Complete fontPath (.text line layout) [.text (Brush.textLine line layout size path)]
  | reversedText {line : String} {layout : Layout} {path : String} {size width : Int}
      (hline : line ≠ "") (hpath : fontPath = some path) (hreverse : layout.reverse = true)
      (hsize : textSize layout.fontHeight = .ok size)
      (hwidth : groundWidth line size = .ok width) :
      Complete fontPath (.text line layout)
        [.rect (Brush.groundRect layout width), .text (Brush.textLine line layout size path)]
  | bars {s : Symbol} {drawn : Int} (x y : Int) (hdrawn : drawnWidth s.moduleWidth = .ok drawn)
      (hcaption : s.hasCaption = false) :
      Complete fontPath (.symbol s x y) ((s.bars drawn x y).map .rect)
  | barsAndCaption {s : Symbol} {drawn x y : Int} {payload : TextLine}
      (hdrawn : drawnWidth s.moduleWidth = .ok drawn)
      (hcaption : s.caption drawn x y = some payload) :
      Complete fontPath (.symbol s x y) ((s.bars drawn x y).map .rect ++ [.text payload])
  | note {t : Task} (h : t.isNote = true) : Complete fontPath t []

/-- What is complete where nothing is asked for is nothing. -/
def CompleteAt (fontPath : Option String) : Option Task → List Primitive → Prop
  | none, ps => ps = []
  | some t, ps => Complete fontPath t ps

theorem complete_of_textPrimitives {line : String} {layout : Layout} {path : String}
    {ps : List Primitive} (hline : line ≠ "") (hpath : fontPath = some path)
    (h : textPrimitives line layout path = .ok ps) : Complete fontPath (.text line layout) ps := by
  obtain ⟨size, hsize, h⟩ := Fault.bind_eq_ok_iff.mp h
  obtain ⟨under, hunder, h⟩ := Fault.bind_eq_ok_iff.mp h
  rw [← Except.ok.inj h]
  rw [ground] at hunder
  cases hreverse : layout.reverse with
  | false =>
      have hcomplete := Complete.text hline hpath hreverse hsize
      rw [hreverse] at hunder
      obtain rfl : [] = under := Except.ok.inj hunder
      rwa [Brush.textLine, hreverse] at hcomplete
  | true =>
      rw [hreverse] at hunder
      obtain ⟨width, hwidth, hunder⟩ := Fault.bind_eq_ok_iff.mp hunder
      have hcomplete := Complete.reversedText hline hpath hreverse hsize hwidth
      rw [← Except.ok.inj hunder]
      rwa [Brush.textLine, hreverse] at hcomplete

theorem complete_of_drawnWidth {s : Symbol} {drawn : Int}
    (hdrawn : drawnWidth s.moduleWidth = .ok drawn) (x y : Int) :
    Complete fontPath (.symbol s x y) (s.primitives drawn x y) := by
  rw [Symbol.primitives]
  cases hcaption : s.caption drawn x y with
  | some payload => exact .barsAndCaption hdrawn hcaption
  | none =>
      have hno : s.hasCaption = false := by
        by_contra hyes
        rw [Symbol.caption, if_pos (Bool.eq_true_of_not_eq_false hyes)] at hcaption
        cases hcaption
      rw [Option.map_none, Option.toList_none, List.append_nil]
      exact .bars x y hdrawn hno

/-- The piece of a task is complete. -/
theorem complete_of_piece {t : Task} {p : Piece} (h : piece files fontPath t = .ok p) :
    Complete fontPath t p.primitives := by
  cases t with
  | box x y b reverse =>
      cases h
      exact .box x y b reverse
  | text line layout =>
      rw [piece, textPiece] at h
      split at h
      · next hempty =>
          cases h
          rw [hempty]
          exact .emptyText layout
      · next hline =>
          obtain ⟨path, hrequire, h⟩ := Fault.bind_eq_ok_iff.mp h
          obtain ⟨ps, hps, h⟩ := Fault.bind_eq_ok_iff.mp h
          obtain ⟨hpath, -⟩ := Canvas.require_eq_ok_iff.mp hrequire
          rw [← Except.ok.inj h]
          exact complete_of_textPrimitives hline hpath hps
  | symbol s x y =>
      obtain ⟨drawn, hdrawn, h⟩ := Fault.bind_eq_ok_iff.mp h
      rw [← Except.ok.inj h]
      exact complete_of_drawnWidth hdrawn x y
  | _ =>
      cases h
      exact .note rfl

/-! ## The place of a failure -/

/-- A plan that fails is carried out up to one of its tasks, which fails. -/
theorem Canvas.exists_failing_task {p : Plan}
    (h : (c.performAll files fontPath p).fault = some fault) :
    ∃ pre t post, p = pre ++ t :: post ∧ (c.performAll files fontPath pre).fault = none ∧
      ((c.performAll files fontPath pre).canvas.perform files fontPath t).fault = some fault ∧
      (c.performAll files fontPath p).canvas = (c.performAll files fontPath pre).canvas := by
  induction p generalizing c with
  | nil => cases h
  | cons t rest ih =>
      cases hfault : (c.perform files fontPath t).fault with
      | some cause =>
          rw [performAll_cons_of_fault hfault] at h ⊢
          exact ⟨[], t, rest, rfl, rfl, h, canvas_of_fault hfault⟩
      | none =>
          rw [fault_performAll_cons hfault] at h
          obtain ⟨pre, u, post, rfl, hpre, hu, hcanvas⟩ := ih h
          refine ⟨t :: pre, u, post, rfl, ?_, ?_, ?_⟩
          · rw [fault_performAll_cons hfault, hpre]
          · rw [canvas_performAll_cons hfault, hu]
          · rw [canvas_performAll_cons hfault, canvas_performAll_cons hfault, hcanvas]

/-- Painting what the places of a stream ask for stops at a place. -/
structure StopsAt (files : Files.Tree) (fontPath : Option String) (asks : Nat → Option Task)
    (c d : Canvas) (fault : Fault) (place : Nat) : Prop where
  /-- What is asked for there fails and, tried stroke by stroke, leaves nothing behind. -/
  fails : ∃ t, asks place = some t ∧ t.FailsWith files fontPath fault ∧
    Brush.task files fontPath t d = .error fault d
  /-- All that is asked for before it is done. -/
  done : Brush.tasks files fontPath ((List.range place).filterMap asks) c = .ok () d
  /-- Complete items have come on the canvas, in order, and nothing else. -/
  items : ∃ items : Nat → List Primitive,
    (∀ i < place, CompleteAt fontPath (asks i) (items i)) ∧
      d.primitives = c.primitives ++ (List.range place).flatMap items
  /-- Without a text among them no font was embedded. -/
  fonts : (∀ i < place, ∀ t, asks i = some t → t.drawsText = false) → d.fonts = c.fonts

theorem completeAt_of_pieces {ask : Option Task}
    (h : ∀ t, ask = some t → ∃ p, piece files fontPath t = .ok p) :
    CompleteAt fontPath ask (ask.toList.flatMap (primitivesOf files fontPath)) := by
  cases ask with
  | none => rfl
  | some t =>
      obtain ⟨p, hp⟩ := h t rfl
      rw [CompleteAt, Option.toList_some, List.flatMap_singleton, primitivesOf, hp]
      exact complete_of_piece hp

/-- What is done to its end is made of complete items, place by place. -/
theorem exists_complete_items {asks : Nat → Option Task} {place : Nat}
    (h : (c.performAll files fontPath ((List.range place).filterMap asks)).fault = none) :
    ∃ items : Nat → List Primitive, (∀ i < place, CompleteAt fontPath (asks i) (items i)) ∧
      (c.performAll files fontPath ((List.range place).filterMap asks)).canvas.primitives =
        c.primitives ++ (List.range place).flatMap items := by
  refine ⟨fun i => (asks i).toList.flatMap (primitivesOf files fontPath), fun i hi => ?_, ?_⟩
  · exact completeAt_of_pieces fun t ht =>
      Canvas.piece_of_performAll h (Scan.mem_filterMap_range_iff.mpr ⟨i, hi, ht⟩)
  · rw [Canvas.primitives_performAll, (Canvas.performed_eq_self_iff c _).mpr h,
      List.filterMap_eq_flatMap_toList, List.flatMap_assoc]

/-- Painting that fails stops at a place. -/
theorem exists_stopsAt {asks : Nat → Option Task} {size : Nat}
    (h : (c.performAll files fontPath ((List.range size).filterMap asks)).fault = some fault) :
    ∃ place < size, StopsAt files fontPath asks c
      (c.performAll files fontPath ((List.range size).filterMap asks)).canvas fault place := by
  obtain ⟨pre, t, post, hsplit, hpre, ht, hcanvas⟩ := Canvas.exists_failing_task h
  obtain ⟨place, hplace, hask, rfl⟩ := Scan.exists_place_of_filterMap_range hsplit
  refine ⟨place, hplace, ⟨t, hask, failsWith_of_perform ht, ?_⟩, ?_, ?_, fun hno => ?_⟩
  · rw [hcanvas, Brush.task_eq_outcome, Painted.outcome, ht, Canvas.canvas_of_fault ht]
  · rw [hcanvas, Brush.tasks_eq_outcome, Painted.outcome, hpre]
  · rw [hcanvas]
    exact exists_complete_items hpre
  · rw [hcanvas]
    refine fonts_performAll_of_not_drawsText (fun u hu => ?_) files fontPath c
    obtain ⟨i, hi, hu⟩ := Scan.mem_filterMap_range_iff.mp hu
    exact hno i hi u hu

/-! ## Labels -/

/-- What the field at a place asks for. -/
def Plan.fieldTaskAt? (data : FieldData) (layouts : FieldLayouts) (drawn : List Int) (j : Nat) :
    Option Task :=
  data[j]?.bind (Plan.fieldTask? layouts drawn)

theorem Plan.ofFields_eq_filterMap_range (data : FieldData) (layouts : FieldLayouts)
    (drawn : List Int) :
    ofFields data layouts drawn =
      (List.range data.length).filterMap (fieldTaskAt? data layouts drawn) :=
  Scan.filterMap_eq_filterMap_range (fieldTask? layouts drawn) data

/-- Painting the commands of a stream, or the fields of a label, that fails has stopped at a
command, or at a field. Painted stroke by stroke, where what was done before a failure stays done,
it ends with the same canvas: the items that were asked for before that place, each complete and in
order, and nothing of the one that failed. -/
theorem Label.exists_stopsAt_of_fault (files : Files.Tree) (fontPath : Option String) (c : Canvas)
    (data : FieldData) :
    (∀ start cs fault,
      (c.performAll files fontPath (Plan.ofCommands data start cs)).fault = some fault →
        ∃ d, (c.performAll files fontPath (Plan.ofCommands data start cs)).canvas = d ∧
          Brush.commands files fontPath data start cs c = .error fault d ∧
          ∃ place < cs.length,
            StopsAt files fontPath (Plan.taskAt? data start cs) c d fault place) ∧
    (∀ layouts drawn fault,
      (c.performAll files fontPath (Plan.ofFields data layouts drawn)).fault = some fault →
        ∃ d, (c.performAll files fontPath (Plan.ofFields data layouts drawn)).canvas = d ∧
          Brush.fields files fontPath layouts drawn data c = .error fault d ∧
          ∃ place < data.length,
            StopsAt files fontPath (Plan.fieldTaskAt? data layouts drawn) c d fault place) := by
  constructor
  · intro start cs fault h
    refine ⟨_, rfl, ?_, ?_⟩
    · rw [Brush.commands_eq_outcome, Painted.outcome, h]
    · rw [Plan.ofCommands_eq_filterMap_range] at h ⊢
      exact exists_stopsAt h
  · intro layouts drawn fault h
    refine ⟨_, rfl, ?_, ?_⟩
    · rw [Brush.fields_eq_outcome, Painted.outcome, h]
    · rw [Plan.ofFields_eq_filterMap_range] at h ⊢
      exact exists_stopsAt h

/-- A box, and a reversed text that belongs to no field. -/
def Label.boxAndReversedText : List Command :=
  [.graphicBox ⟨10, 10, 2⟩, .fieldReverse, .fieldData "Ham"]

/-- The layouts of two fields. The second is reversed, and its font is too high to be scaled. -/
def FieldLayouts.secondTooHigh : FieldLayouts :=
  [(1, { x := 0, y := 0 }), (2, { x := 0, y := 40, fontHeight := 2 ^ 1024, reverse := true })]

/-- A reversed text without a font leaves the box before it, and a field that is too high the field
before it. -/
theorem Label.exists_stopsAt_reversedTexts :
    (∃ d, d.primitives = [.rect (boxRect 0 0 ⟨10, 10, 2⟩ false)] ∧
      Brush.commands .oneFont none [] .initial boxAndReversedText .small =
        .error (.fontNotFound none) d ∧
      ∃ place < 3, StopsAt .oneFont none (Plan.taskAt? [] .initial boxAndReversedText) .small d
        (.fontNotFound none) place) ∧
    ∃ d, d.primitives.length = 1 ∧
      Brush.fields .oneFont (some "f") .secondTooHigh [] [(1, "Ham"), (2, "Egg")] .small =
        .error .integerBeyondFloat d ∧
      ∃ place < 2, StopsAt .oneFont (some "f")
        (Plan.fieldTaskAt? [(1, "Ham"), (2, "Egg")] .secondTooHigh []) .small d
          .integerBeyondFloat place := by
  obtain ⟨d, hd, hcommands⟩ := (exists_stopsAt_of_fault .oneFont none .small []).1 .initial
    boxAndReversedText (.fontNotFound none) (by decide +kernel)
  obtain ⟨e, he, hfields⟩ :=
    (exists_stopsAt_of_fault .oneFont (some "f") .small [(1, "Ham"), (2, "Egg")]).2
      .secondTooHigh [] .integerBeyondFloat (by decide +kernel)
  refine ⟨⟨d, ?_, hcommands⟩, e, ?_, hfields⟩
  · rw [← hd]
    decide +kernel
  · rw [← he]
    decide +kernel

end LabelPress
