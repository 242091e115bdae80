import LabelPress.Label.Conversion
import LabelPress.Proofs.Field.Bindings
import LabelPress.Proofs.Field.Declarations

/-!
# Changes that the passes carry along

The passes decide by the kinds of commands, by the fields that are declared and by which texts are
empty. A change of a stream that leaves these alone changes layouts and tasks in the same way, and
nothing else: no decision looks at a position, at what a text says, or at the words of a command
that is not recognized.

## Implementation notes

Each pass has a lemma of its own for one step, and the lemma for its run follows by induction; a
pass that decides by something else loses its step lemma only.
-/

namespace LabelPress

open LabelPress.Barcode

theorem id_eq_empty_iff (s : String) : id s = "" ↔ s = "" := Iff.rfl

/-- A change of the positions, the texts and the unrecognized words of a label. An empty text stays
empty, and no other text becomes empty. -/
structure Change where
  dx : Int := 0
  dy : Int := 0
  text : String → String := id
  words : String → String := id
  text_eq_empty_iff : ∀ s, text s = "" ↔ s = "" := by exact id_eq_empty_iff

namespace Change

variable (φ : Change)

/-- The changed command. -/
def command : Command → Command
  | .fieldOrigin x y => .fieldOrigin (x + φ.dx) (y + φ.dy)
  | .fieldData text => .fieldData (φ.text text)
  | .unrecognized words => .unrecognized (φ.words words)
  | c => c

/-- The layout moved. -/
def layout (l : Layout) : Layout := { l with x := l.x + φ.dx, y := l.y + φ.dy }

/-- The state moved. -/
def state (s : DrawingState) : DrawingState := { s with toLayout := φ.layout s.toLayout }

variable {φ} in
theorem layout_eq_self (hx : φ.dx = 0) (hy : φ.dy = 0) (l : Layout) : φ.layout l = l := by
  simp [layout, hx, hy]

variable {φ} in
theorem state_eq_self (hx : φ.dx = 0) (hy : φ.dy = 0) (s : DrawingState) : φ.state s = s := by
  rw [state, layout_eq_self hx hy]

/-- The task moved, with its text changed. -/
def task : Task → Task
  | .box x y b reverse => .box (x + φ.dx) (y + φ.dy) b reverse
  | .text text layout => .text (φ.text text) (φ.layout layout)
  | .symbol s x y => .symbol { s with data := φ.text s.data } (x + φ.dx) (y + φ.dy)
  | t => t

/-! ## Kinds of commands -/

@[simp] theorem declares?_command (c : Command) : (φ.command c).declares? = c.declares? := by
  cases c <;> rfl

@[simp] theorem isRecall_command (c : Command) : (φ.command c).isRecall = c.isRecall := by
  cases c <;> rfl

theorem template_command (cs : List Command) :
    Command.template (cs.map φ.command) = (Command.template cs).map φ.command := by
  simp [Command.template, List.takeWhile_map, Function.comp_def]

theorem nextField?_command (cs : List Command) :
    Command.nextField? (cs.map φ.command) = Command.nextField? cs := by
  induction cs with
  | nil => rfl
  | cons c rest ih =>
      cases c with
      | fieldSeparator => exact ih
      | _ => rfl

theorem declaredWithin_command (window : Nat) (before : List Command) :
    Command.declaredWithin window (before.map φ.command) =
      Command.declaredWithin window before := by
  simp [Command.declaredWithin, ← List.map_take, Function.comp_def]

theorem symbolFields_command (cs : List Command) :
    Plan.symbolFields (cs.map φ.command) = Plan.symbolFields cs := by
  induction cs with
  | nil => rfl
  | cons c rest ih =>
      rw [List.map_cons, Plan.symbolFields, Plan.symbolFields, ih]
      cases c <;> simp [Plan.symbolField?, command, nextField?_command]

/-! ## The data of fields -/

theorem bindings_command (waiting : Option Int) (cs : List Command) :
    FieldData.bindings waiting (cs.map φ.command) =
      Entries.mapValues φ.text (FieldData.bindings waiting cs) := by
  induction cs generalizing waiting with
  | nil => rw [List.map_nil, FieldData.bindings_nil, Entries.mapValues, List.map_nil]
  | cons c rest ih =>
      have hbinding : FieldData.binding? waiting (φ.command c) =
          (FieldData.binding? waiting c).map fun b => (b.1, φ.text b.2) := by
        cases c with
        | fieldData text => simp [command, FieldData.binding?, Function.comp_def]
        | _ => rfl
      have hawait : FieldData.await waiting (φ.command c) = FieldData.await waiting c := by
        cases c <;> rfl
      rw [List.map_cons, FieldData.bindings_cons, FieldData.bindings_cons, hbinding, hawait, ih,
        Entries.mapValues, Entries.mapValues, List.map_append]
      cases FieldData.binding? waiting c <;> rfl

/-- The bound fields stay the same, and their texts are changed. -/
theorem data_command (cs : List Command) :
    FieldData.ofCommands (cs.map φ.command) =
      Entries.mapValues φ.text (FieldData.ofCommands cs) := by
  rw [FieldData.ofCommands, bindings_command, FieldData.ofCommands, ← Entries.putAll_mapValues]
  rfl

/-! ## States and layouts -/

/-- A step commutes with the change, under any rules. -/
theorem advance_state (rules : DrawingState.ResetRules) (s : DrawingState) (c : Command) :
    (φ.state s).advance rules (φ.command c) = φ.state (s.advance rules c) := by
  cases c <;> rfl

theorem declarations_command (s : DrawingState) (cs : List Command) :
    FieldLayouts.declarations (φ.state s) (cs.map φ.command) =
      Entries.mapValues φ.layout (FieldLayouts.declarations s cs) := by
  induction cs generalizing s with
  | nil => rfl
  | cons c rest ih =>
      rw [List.map_cons, FieldLayouts.declarations, FieldLayouts.declarations, advance_state, ih,
        declares?_command, Entries.mapValues, Entries.mapValues, List.map_append]
      cases c.declares? <;> rfl

/-- The fields that are laid out stay the same, and their layouts are moved. -/
theorem layouts_command (start : DrawingState) (cs : List Command) :
    FieldLayouts.ofCommands (φ.state start) (cs.map φ.command) =
      Entries.mapValues φ.layout (FieldLayouts.ofCommands start cs) := by
  rw [FieldLayouts.ofCommands_eq_putAllNew, template_command, declarations_command,
    FieldLayouts.ofCommands_eq_putAllNew, ← Entries.putAllNew_mapValues]
  rfl

/-! ## Plans -/

theorem ownText?_command (before : List Command) (c : Command) :
    Plan.ownText? (before.map φ.command) (φ.command c) =
      (Plan.ownText? before c).map φ.text := by
  cases c with
  | fieldData text =>
      simp only [command, Plan.ownText?, declaredWithin_command, ne_eq, φ.text_eq_empty_iff]
      split <;> rfl
  | _ => rfl

theorem advance_painting (before : List Command) (s : DrawingState) (c : Command) :
    Plan.advance (before.map φ.command) (φ.state s) (φ.command c) =
      φ.state (Plan.advance before s c) := by
  rw [Plan.advance, Plan.advance, ownText?_command, Option.isSome_map]
  split
  · exact φ.advance_state .painting s.upright c
  · exact φ.advance_state .painting s c

theorem symbolTask_command (data : FieldData) (place : Nat) (after : List Command)
    (s : DrawingState) :
    Plan.symbolTask (Entries.mapValues φ.text data) place (after.map φ.command) (φ.state s) =
      φ.task (Plan.symbolTask data place after s) := by
  rw [Plan.symbolTask, Plan.symbolTask, nextField?_command]
  cases Command.nextField? after with
  | none => rfl
  | some n =>
      simp only [Entries.get?_mapValues]
      cases Entries.get? n data <;> rfl

/-- A command asks for its task changed. -/
theorem task?_command (data : FieldData) (before after : List Command) (s : DrawingState)
    (c : Command) :
    Plan.task? (Entries.mapValues φ.text data) (before.map φ.command) (after.map φ.command)
        (φ.state s) (φ.command c) =
      (Plan.task? data before after s c).map φ.task := by
  have hown := φ.ownText?_command before c
  cases c with
  | graphicBox b => rfl
  | code128 height flag =>
      have hadvance := φ.advance_painting before s (.code128 height flag)
      simp only [command] at hadvance
      simp only [command, Plan.task?, hadvance, List.length_map, symbolTask_command,
        Option.map_some]
  | _ =>
      simp only [command] at hown
      simp only [command, Plan.task?, hown, Option.map_map]
      rfl

theorem commandsFrom_command (data : FieldData) (before : List Command) (s : DrawingState)
    (cs : List Command) :
    Plan.commandsFrom (Entries.mapValues φ.text data) (before.map φ.command) (φ.state s)
        (cs.map φ.command) =
      (Plan.commandsFrom data before s cs).map φ.task := by
  induction cs generalizing before s with
  | nil => rfl
  | cons c rest ih =>
      rw [List.map_cons, Plan.commandsFrom, Plan.commandsFrom, task?_command, advance_painting,
        ← List.map_cons, ih, List.map_append]
      cases Plan.task? data before rest s c <;> rfl

theorem fieldTask?_command (layouts : FieldLayouts) (drawn : List Int) (n : Int)
    (text : String) :
    Plan.fieldTask? (Entries.mapValues φ.layout layouts) drawn (n, φ.text text) =
      (Plan.fieldTask? layouts drawn (n, text)).map φ.task := by
  simp only [Plan.fieldTask?, φ.text_eq_empty_iff, Entries.get?_mapValues]
  split
  · rfl
  · cases Entries.get? n layouts with
    | none => rfl
    | some layout =>
        simp only [Option.map_some]
        split <;> rfl

theorem ofFields_command (data : FieldData) (layouts : FieldLayouts) (drawn : List Int) :
    Plan.ofFields (Entries.mapValues φ.text data) (Entries.mapValues φ.layout layouts) drawn =
      (Plan.ofFields data layouts drawn).map φ.task := by
  have hdata : Entries.mapValues φ.text data = data.map fun e => (e.1, φ.text e.2) := rfl
  rw [Plan.ofFields, Plan.ofFields, hdata, List.filterMap_map, List.map_filterMap]
  apply List.filterMap_congr
  intro e _
  exact φ.fieldTask?_command layouts drawn e.1 e.2

/-- The changed label asks for the changed tasks, in the same order. -/
theorem plan_command (start : DrawingState) (cs : List Command) :
    Label.plan (φ.state start) (cs.map φ.command) = (Label.plan start cs).map φ.task := by
  have hcommands := φ.commandsFrom_command (FieldData.ofCommands cs) [] start cs
  have hfields := φ.ofFields_command (FieldData.ofCommands cs) (FieldLayouts.ofCommands start cs)
    (Plan.symbolFields cs)
  rw [Label.plan, Label.plan, data_command, layouts_command, symbolFields_command, List.map_append,
    ← hfields]
  exact congrArg (· ++ _) hcommands

end Change

end LabelPress
