import LabelPress.Field.Layouts
import LabelPress.Proofs.Entries
import Mathlib.Data.List.TakeWhile

/-!
# Where fields are laid out

The layout of a field is what the state holds at its first declaration in the template.
-/

namespace LabelPress

namespace Command

/-- A template without recalls is the whole stream. -/
theorem template_eq_self {cs : List Command} (h : ∀ c ∈ cs, c.isRecall = false) :
    template cs = cs :=
  List.takeWhile_eq_self_iff.mpr fun c hc => by simp [h c hc]

/-- A template ends at the first recall. -/
theorem template_append_recall {cs : List Command} (h : ∀ c ∈ cs, c.isRecall = false)
    (name : String) (rest : List Command) :
    template (cs ++ .recallFormat name :: rest) = cs := by
  have hcs : ∀ c ∈ cs, (!c.isRecall) = true := fun c hc => by simp [h c hc]
  rw [template, List.takeWhile_append_of_pos hcs, List.takeWhile_cons_of_neg (by simp [isRecall]),
    List.append_nil]

/-- What follows commands is in the template if none of them is a recall. -/
theorem template_append (cs ds : List Command) :
    template (cs ++ ds) =
      if (template cs).length = cs.length then cs ++ template ds else template cs :=
  List.takeWhile_append

theorem declares?_eq_some_iff {c : Command} {n : Int} :
    c.declares? = some n ↔ c = .fieldNumber n := by
  cases c <;> simp [declares?]

end Command

namespace FieldLayouts

theorem declarations_append (s : DrawingState) (cs ds : List Command) :
    declarations s (cs ++ ds) = declarations s cs ++ declarations (s.run .layout cs) ds := by
  induction cs generalizing s with
  | nil => rfl
  | cons c rest ih =>
      simp only [List.cons_append, declarations, ih, DrawingState.run_cons, List.append_assoc]

/-- The fields that are declared, as they stand in the stream. -/
theorem keys_declarations (s : DrawingState) (cs : List Command) :
    Entries.keys (declarations s cs) = cs.filterMap Command.declares? := by
  induction cs generalizing s with
  | nil => rfl
  | cons c rest ih =>
      rw [declarations, Entries.keys_append, ih, List.filterMap_cons]
      cases c <;> rfl

theorem mem_keys_declarations_iff {s : DrawingState} {cs : List Command} {n : Int} :
    n ∈ Entries.keys (declarations s cs) ↔ .fieldNumber n ∈ cs := by
  simp [keys_declarations, Command.declares?_eq_some_iff]

theorem ofCommands_eq_putAllNew (start : DrawingState) (cs : List Command) :
    ofCommands start cs = Entries.putAllNew [] (declarations start (Command.template cs)) := rfl

/-- No field is laid out twice. -/
theorem nodup_keys_ofCommands (start : DrawingState) (cs : List Command) :
    (Entries.keys (ofCommands start cs)).Nodup := by
  have hnil : (Entries.keys ([] : FieldLayouts)).Nodup := List.nodup_nil
  rw [ofCommands_eq_putAllNew]
  exact Entries.nodup_keys_putAllNew hnil _

/-- The value of a field is found at its declarations. -/
theorem get?_ofCommands (start : DrawingState) (cs : List Command) (n : Int) :
    Entries.get? n (ofCommands start cs) =
      Entries.get? n (declarations start (Command.template cs)) := by
  rw [ofCommands_eq_putAllNew, Entries.get?_putAllNew]
  rfl

/-- The first declaration of a field in the template meets a state with a layout. -/
def FirstDeclaration (start : DrawingState) (cs : List Command) (n : Int) (layout : Layout) :
    Prop :=
  ∃ pre post, Command.template cs = pre ++ .fieldNumber n :: post ∧ .fieldNumber n ∉ pre ∧
    layout = (start.run .layout pre).toLayout

theorem exists_firstDeclaration {start : DrawingState} {cs : List Command} {n : Int}
    (h : .fieldNumber n ∈ Command.template cs) : ∃ layout, FirstDeclaration start cs n layout := by
  obtain ⟨pre, post, hsplit, hn⟩ := List.eq_append_cons_of_mem h
  exact ⟨_, pre, post, hsplit, hn, rfl⟩

/-- A field has the layout that the state holds at its first declaration. -/
theorem get?_ofCommands_of_first {start : DrawingState} {cs : List Command} {n : Int}
    {layout : Layout} (hf : FirstDeclaration start cs n layout) :
    Entries.get? n (ofCommands start cs) = some layout := by
  obtain ⟨pre, post, h, hn, rfl⟩ := hf
  have hpre : Entries.get? n (declarations start pre) = none :=
    Entries.get?_eq_none_iff.mpr fun hm => hn (mem_keys_declarations_iff.mp hm)
  rw [get?_ofCommands, h, declarations_append, Entries.get?_append, hpre, Option.none_or]
  exact List.lookup_cons_self

/-- A field without a declaration in the template has no layout. -/
theorem get?_ofCommands_eq_none_iff {start : DrawingState} {cs : List Command} {n : Int} :
    Entries.get? n (ofCommands start cs) = none ↔ .fieldNumber n ∉ Command.template cs := by
  rw [get?_ofCommands, Entries.get?_eq_none_iff, mem_keys_declarations_iff]

end FieldLayouts

end LabelPress
