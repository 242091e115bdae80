import LabelPress.Proofs.Label.FieldShares
import LabelPress.Proofs.Stream.Changes
import Mathlib.Data.List.Forall2

/-!
# Labels reworded

What the texts of a label say, as long as none becomes or ceases to be empty, decides about the
characters that are painted, the width of the ground under a reversed text, and the modules and the
caption of a symbol, and about nothing else. Both labels are compared with a third, in which every
text that is not empty is one and the same mark.
-/

namespace LabelPress

open LabelPress.Barcode

/-- Two commands that differ in nothing but a text, which is empty in both or in neither. -/
inductive Command.SameButText : Command → Command → Prop
  | same (c : Command) : SameButText c c
  | text (s t : String) (h : s = "" ↔ t = "") : SameButText (.fieldData s) (.fieldData t)

/-- Two painted items that differ in nothing but their text: a box, a text, a reversed text with its
ground, or a symbol. -/
inductive Painting.SamePlace : List Primitive → List Primitive → Prop
  | box (r : Rect) : SamePlace [.rect r] [.rect r]
  | text (line : TextLine) (s : String) :
    SamePlace [.text line] [.text { line with text := s }]
  | reversedText (ground : Rect) (line : TextLine) (width : Int) (s : String) :
    SamePlace [.rect ground, .text line]
      [.rect { ground with width := width }, .text { line with text := s }]
  | symbol (symbol : Symbol) (data : String) (drawn x y : Int) :
    SamePlace (symbol.primitives drawn x y) ({ symbol with data := data }.primitives drawn x y)

/-! ## Marks in place of texts -/

/-- The text that stands for a text: a mark, or nothing for an empty one. -/
def markOf (s : String) : String := if s = "" then "" else "x"

theorem markOf_eq_empty_iff (s : String) : markOf s = "" ↔ s = "" := by
  by_cases h : s = "" <;> simp [markOf, h]

namespace Change

/-- The change that leaves marks in place of texts. -/
def masked : Change where
  text := markOf
  text_eq_empty_iff := markOf_eq_empty_iff

theorem layout_masked (l : Layout) : masked.layout l = l := layout_eq_self rfl rfl l

/-- Commands that differ in a text alone have the same mark. -/
theorem command_masked_of_sameButText {c d : Command} (h : c.SameButText d) :
    masked.command c = masked.command d := by
  cases h with
  | same => rfl
  | text s t hempty =>
      have hmark : markOf s = markOf t := by simp only [markOf, hempty]
      exact congrArg Command.fieldData hmark

theorem map_command_masked {cs ds : List Command} (h : List.Forall₂ Command.SameButText cs ds) :
    cs.map masked.command = ds.map masked.command := by
  rw [← List.forall₂_eq_eq_eq, List.forall₂_map_left_iff, List.forall₂_map_right_iff]
  exact h.imp fun _ _ hsame => command_masked_of_sameButText hsame

theorem isNote_task (φ : Change) (t : Task) : (φ.task t).isNote = t.isNote := by
  cases t <;> rfl

theorem items_task (φ : Change) (p : Plan) :
    Plan.items (p.map φ.task) = (Plan.items p).map φ.task := by
  simp only [Plan.items, List.filter_map, Function.comp_def, isNote_task]

end Change

/-! ## Items -/

namespace Plan

theorem text_ne_empty_of_mem_plan {start : DrawingState} {cs : List Command} {text : String}
    {layout : Layout} (h : .text text layout ∈ Label.plan start cs) : text ≠ "" := by
  rcases List.mem_append.mp h with hstream | hfield
  · rw [ofCommands_eq_filterMap] at hstream
    obtain ⟨v, -, hv⟩ := List.mem_filterMap.mp hstream
    exact (ownText?_eq_some_iff.mp (task?_eq_text_iff.mp hv).1).2.1
  · obtain ⟨⟨n, data⟩, -, hf⟩ := List.mem_filterMap.mp hfield
    rw [fieldTask?] at hf
    split at hf
    · cases hf
    · next hne =>
        split at hf
        · cases hf
        · split at hf
          · cases hf
          · cases hf
            exact hne

end Plan

namespace Painting

variable {files : Files.Tree} {fontPath : Option String}

/-- The ground of a text is there exactly if the text is reversed. -/
theorem ground_cases {text : String} {layout : Layout} {size : Int} {shown : List Primitive}
    (h : ground text layout size = .ok shown) :
    (layout.reverse = false ∧ shown = []) ∨
      (layout.reverse = true ∧ ∃ width, shown = [.rect
        { x := layout.x, y := layout.y, width, height := layout.fontHeight,
          fill := Color.black.name, stroke := Color.none.name }]) := by
  rw [ground] at h
  cases hr : layout.reverse with
  | false =>
      simp only [hr, Bool.false_eq_true, if_false, Except.ok.injEq] at h
      exact Or.inl ⟨rfl, h.symm⟩
  | true =>
      simp only [hr, if_true] at h
      cases hw : groundWidth text size with
      | error fault => simp [hw, bind, Except.bind] at h
      | ok width =>
          simp only [hw, bind, Except.bind, pure, Except.pure, Except.ok.injEq] at h
          exact Or.inr ⟨rfl, width, h.symm⟩

/-- Texts that are painted in one layout with one font stand in the same place. -/
theorem samePlace_text {text text' path : String} {layout : Layout} {shown shown' : List Primitive}
    (h : textPrimitives text layout path = .ok shown)
    (h' : textPrimitives text' layout path = .ok shown') : SamePlace shown shown' := by
  rw [textPrimitives] at h h'
  cases hsize : textSize layout.fontHeight with
  | error fault => simp [hsize, bind, Except.bind] at h
  | ok size =>
      simp only [hsize, bind, Except.bind, pure, Except.pure] at h h'
      cases hg : ground text layout size with
      | error fault => simp [hg] at h
      | ok below =>
          cases hg' : ground text' layout size with
          | error fault => simp [hg'] at h'
          | ok below' =>
              simp only [hg, hg', Except.ok.injEq] at h h'
              rcases ground_cases hg with ⟨hr, rfl⟩ | ⟨hr, width, rfl⟩
              · rcases ground_cases hg' with ⟨-, rfl⟩ | ⟨hr', -⟩
                · rw [← h, ← h']
                  exact .text _ text'
                · rw [hr] at hr'
                  cases hr'
              · rcases ground_cases hg' with ⟨hr', -⟩ | ⟨-, width', rfl⟩
                · rw [hr] at hr'
                  cases hr'
                · rw [← h, ← h']
                  exact .reversedText _ _ width' text'

/-- A task that paints something, and succeeds. -/
structure Paints (files : Files.Tree) (fontPath : Option String) (t : Task) : Prop where
  notNote : t.isNote = false
  notEmpty : ∀ text layout, t = .text text layout → text ≠ ""
  succeeds : ∃ p, piece files fontPath t = .ok p

theorem primitivesOf_eq_share (t : Task) :
    primitivesOf files fontPath t = share files fontPath (some t) := by
  simp [share]

/-- Tasks with the same marks are painted in the same place. -/
theorem samePlace_of_masked {t u : Task} (h : Change.masked.task t = Change.masked.task u)
    (ht : Paints files fontPath t) (hu : Paints files fontPath u) :
    SamePlace (primitivesOf files fontPath t) (primitivesOf files fontPath u) := by
  obtain ⟨p, hp⟩ := ht.succeeds
  obtain ⟨q, hq⟩ := hu.succeeds
  cases t with
  | box x y b reverse =>
      cases u with
      | box x' y' b' reverse' =>
          simp only [Change.task, Task.box.injEq, Int.add_left_inj] at h
          obtain ⟨rfl, rfl, rfl, rfl⟩ := h
          exact .box _
      | _ => cases h
  | text text layout =>
      cases u with
      | text text' layout' =>
          simp only [Change.task, Task.text.injEq, Change.layout_masked] at h
          obtain ⟨-, rfl⟩ := h
          obtain ⟨path, hfont, hshown⟩ := Label.share_text (ht.notEmpty _ _ rfl) hp
          obtain ⟨path', hfont', hshown'⟩ := Label.share_text (hu.notEmpty _ _ rfl) hq
          obtain rfl : path = path' := Except.ok.inj (hfont.symm.trans hfont')
          rw [primitivesOf_eq_share, primitivesOf_eq_share]
          exact samePlace_text hshown hshown'
      | _ => cases h
  | symbol s x y =>
      cases u with
      | symbol s' x' y' =>
          simp only [Change.task, Task.symbol.injEq, Symbol.mk.injEq, Int.add_left_inj] at h
          obtain ⟨⟨-, hmodule, hheight, hflag⟩, rfl, rfl⟩ := h
          obtain ⟨drawn, hdrawn, hshown⟩ := Label.share_symbol hp
          obtain ⟨drawn', hdrawn', hshown'⟩ := Label.share_symbol hq
          rw [← hmodule] at hdrawn'
          obtain rfl : drawn = drawn' := Except.ok.inj (hdrawn.symm.trans hdrawn')
          have hsymbol : s' = { s with data := s'.data } := by
            rw [hmodule, hheight, hflag]
          rw [primitivesOf_eq_share, primitivesOf_eq_share, hshown, hshown', hsymbol]
          exact .symbol s s'.data drawn x y
      | _ => cases h
  | _ => cases ht.notNote

end Painting

namespace Label

open Painting

variable {files : Files.Tree} {fontPath : Option String} {c : Canvas} {cs ds : List Command}

/-- What each of the painted items of a label shows, in the order of painting. -/
def shownItems (files : Files.Tree) (fontPath : Option String) (cs : List Command) :
    List (List Primitive) :=
  (Plan.items (plan .initial cs)).map (primitivesOf files fontPath)

/-- A label that is painted to its end is its items one after the other. -/
theorem primitives_paint_eq_shownItems (h : (paint files fontPath c cs).fault = none) :
    (paint files fontPath c cs).canvas.primitives =
      c.primitives ++ (shownItems files fontPath cs).flatten := by
  obtain ⟨hcanvas, hfault⟩ := Canvas.performAll_items files fontPath c (plan .initial cs)
  have hall := (Canvas.performed_eq_self_iff c _).mpr (hfault.trans h)
  rw [paint, ← hcanvas, Canvas.primitives_performAll, hall, shownItems, List.flatMap_def]

theorem paints_of_mem_items (h : (paint files fontPath c cs).fault = none) :
    ∀ t ∈ Plan.items (plan .initial cs), Paints files fontPath t := by
  intro t ht
  obtain ⟨hmem, hnote⟩ := List.mem_filter.mp ht
  refine ⟨by simpa using hnote, ?_, Canvas.piece_of_performAll h hmem⟩
  rintro text layout rfl
  exact Plan.text_ne_empty_of_mem_plan hmem

/-- Labels that differ in their texts alone ask for tasks that differ in their texts alone. -/
theorem map_masked_items (h : List.Forall₂ Command.SameButText cs ds) (start : DrawingState) :
    (Plan.items (plan start cs)).map Change.masked.task =
      (Plan.items (plan start ds)).map Change.masked.task := by
  rw [← Change.items_task, ← Change.items_task, ← Change.plan_command, ← Change.plan_command,
    Change.map_command_masked h]

/-- Labels that differ in their texts alone bind the same fields in the same order, lay them out
alike and draw symbols for the same ones, and if both are painted to their ends, their items are as
many and stand one after the other in the same places. -/
theorem paint_sameButText (h : List.Forall₂ Command.SameButText cs ds)
    (hcs : (paint files fontPath c cs).fault = none)
    (hds : (paint files fontPath c ds).fault = none) :
    Entries.keys (FieldData.ofCommands cs) = Entries.keys (FieldData.ofCommands ds) ∧
      FieldLayouts.ofCommands .initial cs = FieldLayouts.ofCommands .initial ds ∧
      Plan.symbolFields cs = Plan.symbolFields ds ∧
      (paint files fontPath c cs).canvas.primitives =
        c.primitives ++ (shownItems files fontPath cs).flatten ∧
      (paint files fontPath c ds).canvas.primitives =
        c.primitives ++ (shownItems files fontPath ds).flatten ∧
      List.Forall₂ SamePlace (shownItems files fontPath cs) (shownItems files fontPath ds) := by
  have hmap := Change.map_command_masked h
  have hkeys : ∀ es, Entries.keys (FieldData.ofCommands es) =
      Entries.keys (FieldData.ofCommands (es.map Change.masked.command)) := fun es => by
    rw [Change.data_command, Entries.keys_mapValues]
  have hlayouts : ∀ es, FieldLayouts.ofCommands .initial es =
      FieldLayouts.ofCommands .initial (es.map Change.masked.command) := fun es => by
    have hmoved := Change.masked.layouts_command .initial es
    rw [Change.state_eq_self rfl rfl] at hmoved
    rw [hmoved, Entries.mapValues]
    simp only [Change.layout_masked, List.map_id']
  have hsymbols := fun es => Change.masked.symbolFields_command es
  refine ⟨?_, ?_, ?_, primitives_paint_eq_shownItems hcs, primitives_paint_eq_shownItems hds, ?_⟩
  · rw [hkeys cs, hkeys ds, hmap]
  · rw [hlayouts cs, hlayouts ds, hmap]
  · rw [← hsymbols cs, ← hsymbols ds, hmap]
  · rw [shownItems, shownItems, List.forall₂_map_left_iff, List.forall₂_map_right_iff]
    have hitems := map_masked_items h .initial
    rw [← List.forall₂_eq_eq_eq, List.forall₂_map_left_iff, List.forall₂_map_right_iff] at hitems
    have hleft := (List.forall₂_and_left _ _).mpr ⟨paints_of_mem_items hcs, hitems⟩
    have hboth := (List.forall₂_and_left _ _).mpr ⟨paints_of_mem_items hds, hleft.flip⟩
    exact hboth.flip.imp fun t u hpaints => samePlace_of_masked hpaints.2.2 hpaints.2.1 hpaints.1

/-- The label of a reversed text field and a symbol, with other texts. -/
def fieldAndSymbolReworded : List Command :=
  [.fieldReverse, .fieldOrigin 5 5, .fieldNumber 1, .fieldSeparator, .code128 40 "Y",
    .fieldNumber 2, .fieldData "<C>", .fieldSeparator, .fieldNumber 1, .fieldData "Cheese"]

theorem paint_sameButText_fieldAndSymbol :
    List.Forall₂ Command.SameButText fieldAndSymbol fieldAndSymbolReworded ∧
      (paint .oneFont (some "f") .small fieldAndSymbol).fault = none ∧
      (paint .oneFont (some "f") .small fieldAndSymbolReworded).fault = none ∧
      (shownItems .oneFont (some "f") fieldAndSymbol).length = 2 ∧
      List.Forall₂ SamePlace (shownItems .oneFont (some "f") fieldAndSymbol)
        (shownItems .oneFont (some "f") fieldAndSymbolReworded) := by
  have hsame : List.Forall₂ Command.SameButText fieldAndSymbol fieldAndSymbolReworded := by
    have htext := Command.SameButText.text
    exact .cons (.same _) <| .cons (.same _) <| .cons (.same _) <| .cons (.same _) <|
      .cons (.same _) <| .cons (.same _) <| .cons (htext "AB" "<C>" (by decide)) <|
      .cons (.same _) <| .cons (.same _) <| .cons (htext "Ham" "Cheese" (by decide)) .nil
  have hcs : (paint .oneFont (some "f") .small fieldAndSymbol).fault = none := by
    decide +kernel
  have hds : (paint .oneFont (some "f") .small fieldAndSymbolReworded).fault = none := by
    decide +kernel
  obtain ⟨-, -, -, -, -, hitems⟩ := paint_sameButText hsame hcs hds
  exact ⟨hsame, hcs, hds, by decide +kernel, hitems⟩

end Label

end LabelPress
