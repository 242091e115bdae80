import LabelPress.Label.Conversion
import LabelPress.Proofs.Field.Bindings
import LabelPress.Proofs.Field.Declarations
import LabelPress.Proofs.Painting.Performed
import LabelPress.Proofs.Stream.Visits

/-!
# The two shapes of a label

The fields of a label may get their texts where they are declared, or all of them after the template
has been recalled. Both shapes bind the same texts, lay the fields out alike and paint the same
items, so they come to the same canvas or to the same failure.

## Implementation notes

A symbol without a field is reported by its place in the stream, and places differ between the
shapes. The two plans therefore agree only in the tasks that paint.
-/

namespace LabelPress

/-- Whether a command neither declares a field nor holds a text nor recalls a format. -/
def Command.isFieldless : Command → Bool
  | .fieldNumber _ | .fieldData _ | .recallFormat _ => false
  | _ => true

/-- A field with its text and the commands that lead up to it. -/
structure Segment where
  lead : List Command
  number : Int
  text : String
  fieldless : ∀ c ∈ lead, c.isFieldless = true

namespace Segment

/-- The segment up to the declaration of its field. -/
def declaration (g : Segment) : List Command := g.lead ++ [.fieldNumber g.number]

/-- The segment with the text where the field is declared. -/
def inline (g : Segment) : List Command :=
  g.lead ++ [.fieldNumber g.number, .fieldData g.text, .fieldSeparator]

/-- The segment as a part of a template. -/
def template (g : Segment) : List Command := g.lead ++ [.fieldNumber g.number, .fieldSeparator]

/-- The text of the segment after the template. -/
def payload (g : Segment) : List Command :=
  [.fieldNumber g.number, .fieldData g.text, .fieldSeparator]

/-- The state of the painting scan after a segment. -/
def settled (s : DrawingState) (g : Segment) : DrawingState := (s.run .painting g.lead).upright

theorem not_text_of_lead (g : Segment) (text : String) : Command.fieldData text ∉ g.lead := by
  intro h
  cases g.fieldless _ h

end Segment

namespace Label

open Plan

/-- A label whose fields get their texts where they are declared. -/
def inline (gs : List Segment) : List Command := gs.flatMap Segment.inline

/-- A template of fields. -/
def fieldTemplate (gs : List Segment) : List Command := gs.flatMap Segment.template

/-- The texts of fields. -/
def payloads (gs : List Segment) : List Command := gs.flatMap Segment.payload

/-- A label whose fields get their texts after the template. -/
def separated (name : String) (gs : List Segment) : List Command :=
  fieldTemplate gs ++ .recallFormat name :: payloads gs

theorem inline_cons (g : Segment) (rest : List Segment) :
    inline (g :: rest) = g.lead ++
      (.fieldNumber g.number :: .fieldData g.text :: .fieldSeparator :: inline rest) := by
  simp [inline, Segment.inline]

theorem fieldTemplate_cons (g : Segment) (rest : List Segment) :
    fieldTemplate (g :: rest) =
      g.lead ++ (.fieldNumber g.number :: .fieldSeparator :: fieldTemplate rest) := by
  simp [fieldTemplate, Segment.template]

theorem fieldTemplate_cons_append (g : Segment) (rest : List Segment) (after : List Command) :
    fieldTemplate (g :: rest) ++ after =
      g.lead ++ (.fieldNumber g.number :: .fieldSeparator :: (fieldTemplate rest ++ after)) := by
  rw [fieldTemplate_cons, List.append_assoc, List.cons_append, List.cons_append]

theorem payloads_cons (g : Segment) (rest : List Segment) :
    payloads (g :: rest) =
      .fieldNumber g.number :: .fieldData g.text :: .fieldSeparator :: payloads rest := rfl

/-! ## Bindings -/

theorem bindings_payloads (waiting : Option Int) (gs : List Segment) :
    FieldData.bindings waiting (payloads gs) = gs.map fun g => (g.number, g.text) := by
  induction gs generalizing waiting with
  | nil => exact FieldData.bindings_nil waiting
  | cons g rest ih =>
      rw [payloads_cons]
      simp only [FieldData.bindings, ih, List.map_cons]

theorem bindings_inline (waiting : Option Int) (gs : List Segment) :
    FieldData.bindings waiting (inline gs) = gs.map fun g => (g.number, g.text) := by
  induction gs generalizing waiting with
  | nil => exact FieldData.bindings_nil waiting
  | cons g rest ih =>
      rw [inline_cons, FieldData.bindings_append, FieldData.bindings_eq_nil g.not_text_of_lead]
      simp only [FieldData.bindings, ih, List.map_cons, List.nil_append]

theorem not_text_of_fieldTemplate (gs : List Segment) (text : String) :
    Command.fieldData text ∉ fieldTemplate gs := by
  intro h
  obtain ⟨g, _, hg⟩ := List.mem_flatMap.mp h
  simp [Segment.template, g.not_text_of_lead text] at hg

/-- Both shapes bind the same texts in the same order. -/
theorem bindings_separated (name : String) (gs : List Segment) :
    FieldData.bindings none (separated name gs) = FieldData.bindings none (inline gs) := by
  rw [separated, FieldData.bindings_append,
    FieldData.bindings_eq_nil (not_text_of_fieldTemplate gs), FieldData.bindings_cons,
    bindings_payloads, bindings_inline]
  rfl

/-! ## Layouts -/

theorem not_recall_of_lead (g : Segment) {c : Command} (h : c ∈ g.lead) :
    c.isRecall = false := by
  have hc := g.fieldless c h
  cases c <;> first | rfl | cases hc

/-- Segments that put no recall after their leads hold no recall. -/
theorem not_recall_of_segments {f : Segment → List Command}
    (hf : ∀ g, ∀ c ∈ f g, c ∈ g.lead ∨ c.isRecall = false) (gs : List Segment) :
    ∀ c ∈ gs.flatMap f, c.isRecall = false := by
  intro c h
  obtain ⟨g, _, hg⟩ := List.mem_flatMap.mp h
  exact (hf g c hg).elim (not_recall_of_lead g) id

theorem not_recall_of_inline (gs : List Segment) : ∀ c ∈ inline gs, c.isRecall = false := by
  apply not_recall_of_segments
  intro g c h
  apply (List.mem_append.mp h).imp_right
  intro hc
  simp only [List.mem_cons, List.not_mem_nil, or_false] at hc
  rcases hc with rfl | rfl | rfl <;> rfl

theorem not_recall_of_fieldTemplate (gs : List Segment) :
    ∀ c ∈ fieldTemplate gs, c.isRecall = false := by
  apply not_recall_of_segments
  intro g c h
  apply (List.mem_append.mp h).imp_right
  intro hc
  simp only [List.mem_cons, List.not_mem_nil, or_false] at hc
  rcases hc with rfl | rfl <;> rfl

/-- Neither a text nor a separator changes the state while layouts are collected, so the fields are
declared in the same states. -/
theorem declarations_fieldTemplate (s : DrawingState) (gs : List Segment) :
    FieldLayouts.declarations s (fieldTemplate gs) =
      FieldLayouts.declarations s (inline gs) := by
  induction gs generalizing s with
  | nil => rfl
  | cons g rest ih =>
      have hsame : ∀ t : DrawingState, t.advance .layout .fieldSeparator = t ∧
          t.advance .layout (.fieldData g.text) = t := fun t => by
        simp [DrawingState.advance, DrawingState.set, DrawingState.ResetRules.resets,
          DrawingState.ResetRules.layout]
      rw [fieldTemplate_cons, inline_cons, FieldLayouts.declarations_append,
        FieldLayouts.declarations_append]
      simp only [FieldLayouts.declarations, Command.declares?, Option.map_none,
        Option.toList_none, List.nil_append, hsame, ih]

/-- Both shapes lay their fields out alike. -/
theorem layouts_separated (start : DrawingState) (name : String) (gs : List Segment) :
    FieldLayouts.ofCommands start (separated name gs) =
      FieldLayouts.ofCommands start (inline gs) := by
  rw [FieldLayouts.ofCommands, FieldLayouts.ofCommands, separated,
    Command.template_append_recall (not_recall_of_fieldTemplate gs),
    Command.template_eq_self (not_recall_of_inline gs), declarations_fieldTemplate]

/-! ## Items -/

theorem not_text_of_fieldless {c : Command} (h : c.isFieldless = true) (text : String) :
    c ≠ .fieldData text := by
  rintro rfl
  cases h

theorem advance_painting_fieldNumber (s : DrawingState) (n : Int) :
    s.advance .painting (.fieldNumber n) = s := by
  simp [DrawingState.advance, DrawingState.set, DrawingState.ResetRules.resets,
    DrawingState.ResetRules.painting]

theorem advance_painting_fieldData (s : DrawingState) (text : String) :
    s.advance .painting (.fieldData text) = s := by
  simp [DrawingState.advance, DrawingState.set, DrawingState.ResetRules.resets]

theorem advance_painting_fieldSeparator (s : DrawingState) :
    s.advance .painting .fieldSeparator = s.upright := by
  simp [DrawingState.advance, DrawingState.set, DrawingState.ResetRules.resets,
    DrawingState.ResetRules.painting, DrawingState.upright]

/-- What a fieldless command paints depends on the state and on the next declaration only. -/
theorem items_task?_of_fieldless {c : Command} (h : c.isFieldless = true) (data : FieldData)
    (before before' lead after : List Command) (n : Int) (s : DrawingState) :
    Plan.items (task? data before (lead ++ .fieldNumber n :: after) s c).toList =
      Plan.items (task? data before' (lead ++ [.fieldNumber n]) s c).toList := by
  cases c with
  | fieldNumber | fieldData | recallFormat => cases h
  | code128 height flag =>
      simp only [task?, symbolTask, nextField?_append lead n after, Option.toList_some]
      cases Command.nextField? (lead ++ [.fieldNumber n]) with
      | none => rfl
      | some m => rfl
  | _ => rfl

/-- What leads up to a declaration paints the same wherever it stands. -/
theorem items_declaration {lead : List Command} (h : ∀ c ∈ lead, c.isFieldless = true)
    (data : FieldData) (before before' : List Command) (s : DrawingState) (n : Int)
    (after : List Command) :
    Plan.items (commandsFrom data before s (lead ++ .fieldNumber n :: after)) =
      Plan.items (commandsFrom data before' s (lead ++ [.fieldNumber n])) ++
        Plan.items (commandsFrom data (.fieldNumber n :: (lead.reverse ++ before))
          (s.run .painting lead) after) := by
  induction lead generalizing before before' s with
  | nil =>
      have hown : ownText? before (.fieldNumber n) = none := rfl
      simp [commandsFrom, task?, ownText?, advance_eq hown, advance_painting_fieldNumber]
  | cons c rest ih =>
      have hc := h c List.mem_cons_self
      have hrest : ∀ d ∈ rest, d.isFieldless = true := fun d hd => h d (List.mem_cons_of_mem c hd)
      have hown : ∀ b, ownText? b c = none := fun b =>
        ownText?_eq_none (not_text_of_fieldless hc)
      simp only [List.cons_append, commandsFrom, advance_eq (hown _), Plan.items_append,
        items_task?_of_fieldless hc data before before' rest after n s,
        ih hrest (c :: before) (c :: before') (s.advance .painting c), List.reverse_cons,
        List.append_assoc, DrawingState.run_cons, List.nil_append]

/-- The items of segments, each painted in the state that the segments before it leave. -/
def itemsOf (data : FieldData) (s : DrawingState) : List Segment → Plan
  | [] => []
  | g :: rest =>
    Plan.items (commandsFrom data [] s g.declaration) ++ itemsOf data (g.settled s) rest

/-- A field that follows its declaration paints nothing while the stream is scanned, and leaves the
state upright. -/
theorem commandsFrom_payload (data : FieldData) (before : List Command) (s : DrawingState) (n : Int)
    (text : String) (after : List Command) :
    commandsFrom data (.fieldNumber n :: before) s (.fieldData text :: .fieldSeparator :: after) =
      commandsFrom data (.fieldSeparator :: .fieldData text :: .fieldNumber n :: before) s.upright
        after := by
  have htext := ownText?_after_fieldNumber n before (.fieldData text)
  have hsep : ownText? (.fieldData text :: .fieldNumber n :: before) .fieldSeparator = none := rfl
  simp only [commandsFrom, task?, htext, hsep, Option.map_none, Option.toList_none,
    List.nil_append, advance_eq htext, advance_eq hsep, advance_painting_fieldData,
    advance_painting_fieldSeparator]

theorem items_inline (data : FieldData) (before : List Command) (s : DrawingState)
    (gs : List Segment) :
    Plan.items (commandsFrom data before s (inline gs)) = itemsOf data s gs := by
  induction gs generalizing before s with
  | nil => rfl
  | cons g rest ih =>
      rw [inline_cons, items_declaration g.fieldless data before [], commandsFrom_payload, ih]
      rfl

theorem items_fieldTemplate (data : FieldData) (before : List Command) (s : DrawingState)
    (gs : List Segment) {after : List Command}
    (h : ∀ b t, Plan.items (commandsFrom data b t after) = []) :
    Plan.items (commandsFrom data before s (fieldTemplate gs ++ after)) = itemsOf data s gs := by
  induction gs generalizing before s with
  | nil => exact h before s
  | cons g rest ih =>
      have hsep : ∀ b, ownText? b .fieldSeparator = none := fun _ => rfl
      rw [fieldTemplate_cons_append, items_declaration g.fieldless data before []]
      simp only [commandsFrom, task?, hsep, Option.map_none, Option.toList_none, List.nil_append,
        advance_eq (hsep _), advance_painting_fieldSeparator, ih]
      rfl

theorem commandsFrom_payloads (data : FieldData) (before : List Command) (s : DrawingState)
    (gs : List Segment) : commandsFrom data before s (payloads gs) = [] := by
  induction gs generalizing before s with
  | nil => rfl
  | cons g rest ih =>
      have hown : ownText? before (.fieldNumber g.number) = none := rfl
      rw [payloads_cons, commandsFrom, commandsFrom_payload, ih]
      rfl

/-- Both shapes paint the same items. -/
theorem items_separated (data : FieldData) (start : DrawingState) (name : String)
    (gs : List Segment) :
    Plan.items (ofCommands data start (separated name gs)) =
      Plan.items (ofCommands data start (inline gs)) := by
  rw [ofCommands, ofCommands, items_inline, separated]
  apply items_fieldTemplate
  intro before s
  rw [commandsFrom, commandsFrom_payloads]
  rfl

/-! ## Symbols -/

theorem symbolFields_inline (gs : List Segment) :
    symbolFields (inline gs) = gs.flatMap fun g => symbolFields g.declaration := by
  induction gs with
  | nil => rfl
  | cons g rest ih =>
      rw [inline_cons, symbolFields_append, List.flatMap_cons]
      simp only [symbolFields, symbolField?, Option.toList_none, List.nil_append, ih]
      rfl

theorem symbolFields_fieldTemplate (gs : List Segment) {after : List Command}
    (h : symbolFields after = []) :
    symbolFields (fieldTemplate gs ++ after) =
      gs.flatMap fun g => symbolFields g.declaration := by
  induction gs with
  | nil => exact h
  | cons g rest ih =>
      rw [fieldTemplate_cons_append, symbolFields_append, List.flatMap_cons]
      simp only [symbolFields, symbolField?, Option.toList_none, List.nil_append, ih]
      rfl

theorem symbolFields_payloads (gs : List Segment) : symbolFields (payloads gs) = [] := by
  induction gs with
  | nil => rfl
  | cons g rest ih => exact ih

/-- Both shapes draw symbols for the same fields. -/
theorem symbolFields_separated (name : String) (gs : List Segment) :
    symbolFields (separated name gs) = symbolFields (inline gs) := by
  rw [symbolFields_inline, separated]
  exact symbolFields_fieldTemplate gs (symbolFields_payloads gs)

/-! ## Labels -/

/-- Both shapes of a label come to the same canvas or to the same failure, and draw symbols for the
same fields. -/
theorem paint_separated_eq_inline (files : Files.Tree) (fontPath : Option String) (c : Canvas)
    (name : String) (gs : List Segment) :
    (paint files fontPath c (separated name gs)).canvas =
        (paint files fontPath c (inline gs)).canvas ∧
      (paint files fontPath c (separated name gs)).fault =
        (paint files fontPath c (inline gs)).fault ∧
      symbolFields (separated name gs) = symbolFields (inline gs) := by
  have hdata : FieldData.ofCommands (separated name gs) = FieldData.ofCommands (inline gs) := by
    rw [FieldData.ofCommands, bindings_separated, FieldData.ofCommands]
  have hplan : Plan.items (plan .initial (separated name gs)) =
      Plan.items (plan .initial (inline gs)) := by
    simp only [plan, Plan.items_append, hdata, layouts_separated, symbolFields_separated,
      items_separated]
  obtain ⟨hcanvas, hfault⟩ := Canvas.performAll_congr files fontPath hplan c
  exact ⟨hcanvas, hfault, symbolFields_separated name gs⟩

end Label

end LabelPress
