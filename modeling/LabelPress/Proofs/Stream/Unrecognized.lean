import LabelPress.Proofs.Stream.Changes
import LabelPress.Proofs.Stream.Settled

/-!
# Commands that are not recognized

No pass looks at what an unrecognized command says, only at its place, and after settled commands
not even at that: there it can neither end the wait of a field, nor part a symbol from its field,
nor push a declaration out of sight.
-/

namespace LabelPress

namespace Command

/-- A command without the words of one that is not recognized. -/
def wordless : Command → Command
  | unrecognized _ => unrecognized ""
  | c => c

end Command

open Command

/-! ## The words of a command -/

namespace Change

/-- The change that leaves out the words of commands that are not recognized. -/
def wordless : Change where
  words := fun _ => ""

theorem command_wordless : wordless.command = Command.wordless := by
  funext c
  cases c <;> simp [command, wordless, Command.wordless]

theorem task_wordless : wordless.task = id := by
  funext t
  cases t <;> simp [task, layout, wordless]

end Change

/-- No pass looks at the words of a command that is not recognized. -/
theorem Label.plan_wordless (start : DrawingState) (cs : List Command) :
    plan start (cs.map wordless) = plan start cs := by
  calc
    plan start (cs.map wordless)
        = plan (Change.wordless.state start) (cs.map Change.wordless.command) := by
      rw [Change.command_wordless, Change.state_eq_self rfl rfl]
    _ = (plan start cs).map Change.wordless.task := Change.plan_command ..
    _ = plan start cs := by rw [Change.task_wordless, List.map_id]

theorem Plan.symbolFields_wordless (cs : List Command) :
    symbolFields (cs.map wordless) = symbolFields cs := by
  rw [← Change.command_wordless, Change.symbolFields_command]

/-! ## Unrecognized commands by themselves -/

/-- Commands that are not recognized. -/
def Command.allUnrecognized (words : List String) : List Command := words.map .unrecognized

theorem Command.Settled.append_unrecognized {cs : List Command} (h : Settled cs)
    (words : List String) : Settled (cs ++ allUnrecognized words) := by
  induction words generalizing cs with
  | nil => rwa [allUnrecognized, List.map_nil, List.append_nil]
  | cons word words ih =>
      have hsight : ∀ n, .fieldNumber n ∉ cs.rtake 2 := by
        intro n hn
        apply h.sight n
        rw [List.rtake_eq_reverse_take_reverse, List.mem_reverse] at hn ⊢
        exact List.take_subset_take_left cs.reverse (by omega) hn
      rw [allUnrecognized, List.map_cons, List.append_cons]
      exact ih (settled_concat hsight nofun nofun nofun)

theorem FieldData.bindings_unrecognized (words : List String) :
    bindings none (allUnrecognized words) = [] := by
  apply bindings_eq_nil
  intro text htext
  obtain ⟨word, -, hword⟩ := List.mem_map.mp htext
  cases hword

theorem FieldLayouts.declarations_unrecognized_append (s : DrawingState) (words : List String)
    (cs : List Command) : declarations s (allUnrecognized words ++ cs) = declarations s cs := by
  induction words with
  | nil => rfl
  | cons word words ih =>
      have hstate : s.advance .layout (.unrecognized word) = s := by
        simp [DrawingState.advance, DrawingState.set, DrawingState.ResetRules.resets]
      rw [allUnrecognized, List.map_cons, List.cons_append, declarations, hstate]
      exact ih

namespace Plan

theorem stateFrom_unrecognized (before : List Command) (s : DrawingState) (words : List String) :
    stateFrom before s (allUnrecognized words) = s := by
  induction words generalizing before with
  | nil => rfl
  | cons word words ih =>
      have hstate : advance before s (.unrecognized word) = s := by
        simp [advance, ownText?, DrawingState.advance, DrawingState.set,
          DrawingState.ResetRules.resets]
      rw [allUnrecognized, List.map_cons, stateFrom, hstate]
      exact ih _

theorem commandsFrom_unrecognized (data : FieldData) (before : List Command) (s : DrawingState)
    (words : List String) : commandsFrom data before s (allUnrecognized words) = [] := by
  induction words generalizing before s with
  | nil => rfl
  | cons word words ih => exact ih _ _

theorem symbolFields_unrecognized (words : List String) :
    symbolFields (allUnrecognized words) = [] := by
  induction words with
  | nil => rfl
  | cons word words ih => exact ih

end Plan

/-! ## Unrecognized commands after settled ones -/

section Insertion

variable {cs : List Command}

theorem FieldData.ofCommands_insert_unrecognized (h : Settled cs) (words : List String)
    (ds : List Command) :
    ofCommands (cs ++ allUnrecognized words ++ ds) = ofCommands (cs ++ ds) := by
  rw [ofCommands, ofCommands, bindings_append_of_settled (h.append_unrecognized words),
    bindings_append_of_settled h, bindings_append_of_settled h, bindings_unrecognized,
    List.append_nil]

/-- The layouts of fields are the same wherever unrecognized commands stand. -/
theorem FieldLayouts.ofCommands_insert_unrecognized (start : DrawingState) (cs : List Command)
    (words : List String) (ds : List Command) :
    ofCommands start (cs ++ allUnrecognized words ++ ds) = ofCommands start (cs ++ ds) := by
  have hwords : ∀ c ∈ allUnrecognized words, (!c.isRecall) = true := by
    intro c hc
    obtain ⟨word, -, rfl⟩ := List.mem_map.mp hc
    rfl
  have htemplate : template (allUnrecognized words ++ ds) = allUnrecognized words ++ template ds :=
    List.takeWhile_append_of_pos hwords
  have hdeclarations : declarations start (template (cs ++ (allUnrecognized words ++ ds))) =
      declarations start (template (cs ++ ds)) := by
    rw [template_append, htemplate, template_append]
    split
    · rw [declarations_append, declarations_unrecognized_append, declarations_append]
    · rfl
  rw [ofCommands, ofCommands, List.append_assoc, hdeclarations]

theorem Plan.symbolFields_insert_unrecognized (h : Settled cs) (words : List String)
    (ds : List Command) :
    symbolFields (cs ++ allUnrecognized words ++ ds) = symbolFields (cs ++ ds) := by
  rw [symbolFields_append_of_decided (h.append_unrecognized words).symbol,
    symbolFields_append_of_decided h.symbol, symbolFields_append_of_decided h.symbol,
    symbolFields_unrecognized, List.append_nil]

theorem Plan.items_ofCommands_insert_unrecognized (h : Settled cs) (words : List String)
    (data : FieldData) (start : DrawingState) (ds : List Command) :
    Plan.items (ofCommands data start (cs ++ allUnrecognized words ++ ds)) =
      Plan.items (ofCommands data start (cs ++ ds)) := by
  have hnone : Plan.items (ofCommands data (stateFrom [] start cs) (allUnrecognized words)) = [] :=
    congrArg Plan.items (commandsFrom_unrecognized ..)
  rw [items_ofCommands_append_of_settled (h.append_unrecognized words),
    items_ofCommands_append_of_settled h, items_ofCommands_append_of_settled h,
    stateFrom_append_of_settled h, stateFrom_unrecognized, hnone, List.append_nil]

theorem Label.items_plan_insert_unrecognized (h : Settled cs) (words : List String)
    (start : DrawingState) (ds : List Command) :
    Plan.items (plan start (cs ++ allUnrecognized words ++ ds)) =
      Plan.items (plan start (cs ++ ds)) := by
  rw [plan, plan, Plan.items_append, Plan.items_append,
    FieldData.ofCommands_insert_unrecognized h, FieldLayouts.ofCommands_insert_unrecognized,
    Plan.symbolFields_insert_unrecognized h, Plan.items_ofCommands_insert_unrecognized h]

/-- A command that is not recognized changes nothing at the start of a stream. -/
theorem Label.items_plan_unrecognized_cons (start : DrawingState) (words : String)
    (cs : List Command) :
    Plan.items (plan start (.unrecognized words :: cs)) = Plan.items (plan start cs) :=
  items_plan_insert_unrecognized settled_nil [words] start cs

/-- After settled commands unrecognized ones make no difference: the texts that are bound, the
layouts, the fields that symbols are drawn for, the canvas and the failure are the same. -/
theorem Label.performAll_plan_insert_unrecognized (h : Settled cs) (words : List String)
    (ds : List Command) (start : DrawingState) (files : Files.Tree) (fontPath : Option String)
    (c : Canvas) :
    FieldData.ofCommands (cs ++ allUnrecognized words ++ ds) = FieldData.ofCommands (cs ++ ds) ∧
      FieldLayouts.ofCommands start (cs ++ allUnrecognized words ++ ds) =
        FieldLayouts.ofCommands start (cs ++ ds) ∧
      Plan.symbolFields (cs ++ allUnrecognized words ++ ds) = Plan.symbolFields (cs ++ ds) ∧
      (c.performAll files fontPath (plan start (cs ++ allUnrecognized words ++ ds))).canvas =
        (c.performAll files fontPath (plan start (cs ++ ds))).canvas ∧
      (c.performAll files fontPath (plan start (cs ++ allUnrecognized words ++ ds))).fault =
        (c.performAll files fontPath (plan start (cs ++ ds))).fault := by
  have hitems := items_plan_insert_unrecognized h words start ds
  exact ⟨FieldData.ofCommands_insert_unrecognized h words ds,
    FieldLayouts.ofCommands_insert_unrecognized start cs words ds,
    Plan.symbolFields_insert_unrecognized h words ds,
    Canvas.performAll_congr files fontPath hitems c⟩

/-- A field with its text and a symbol with its field, and then a reversal at a new position. -/
def Command.fieldSymbolAndReversal : List Command :=
  [.fieldNumber 1, .fieldData "Ham", .code128 40 "Y", .fieldSeparator, .fieldNumber 2,
    .fieldSeparator, .fieldReverse] ++ [.fieldOrigin 5 5]

theorem Label.performAll_plan_insert_unrecognized_fieldSymbolAndReversal :
    Settled fieldSymbolAndReversal ∧
      (Canvas.small.performAll .oneFont (some "f") (plan .initial
          (fieldSymbolAndReversal ++ allUnrecognized ["XA", "CF0"] ++ [.fieldData "Egg"]))).canvas =
        (Canvas.small.performAll .oneFont (some "f") (plan .initial
          (fieldSymbolAndReversal ++ [.fieldData "Egg"]))).canvas := by
  have hsettled : Settled fieldSymbolAndReversal := by
    refine settled_concat ?_ nofun nofun nofun
    intro n hn
    simp [List.rtake] at hn
  obtain ⟨-, -, -, hcanvas, -⟩ := performAll_plan_insert_unrecognized hsettled ["XA", "CF0"]
    [.fieldData "Egg"] .initial .oneFont (some "f") .small
  exact ⟨hsettled, hcanvas⟩

end Insertion

end LabelPress
