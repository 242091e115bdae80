import LabelPress.Label.Plan
import LabelPress.Proofs.Stream.Places
import Mathlib.Data.List.Basic

/-!
# Visits of the painting scan

The painting scan meets each command between those before it and those after it, in a state of its
own. A plan is what its visits ask for, one after the other, so a statement about one place of a
stream is a statement about one visit.
-/

namespace LabelPress

/-- A command as the painting scan meets it, with the commands before it, latest first. -/
structure Visit where
  before : List Command
  state : DrawingState
  command : Command
  after : List Command

namespace Visit

/-- What the command of a visit asks for. -/
def task? (data : FieldData) (v : Visit) : Option Task :=
  Plan.task? data v.before v.after v.state v.command

/-- The field that a symbol is drawn for at a visit. -/
def symbolField? (v : Visit) : Option Int := Plan.symbolField? v.after v.command

end Visit

namespace Plan

/-- The visits of commands that follow others. -/
def visitsFrom (before : List Command) (s : DrawingState) : List Command → List Visit
  | [] => []
  | c :: after => ⟨before, s, c, after⟩ :: visitsFrom (c :: before) (advance before s c) after

/-- The visits of a command stream. -/
def visits (start : DrawingState) (cs : List Command) : List Visit := visitsFrom [] start cs

/-- The state of the painting scan after commands that follow others. -/
def stateFrom (before : List Command) (s : DrawingState) : List Command → DrawingState
  | [] => s
  | c :: after => stateFrom (c :: before) (advance before s c) after

theorem stateFrom_append (before : List Command) (s : DrawingState) (cs ds : List Command) :
    stateFrom before s (cs ++ ds) =
      stateFrom (cs.reverse ++ before) (stateFrom before s cs) ds := by
  induction cs generalizing before s with
  | nil => rfl
  | cons c rest ih => simp [stateFrom, ih]

theorem commandsFrom_eq_filterMap (data : FieldData) (before : List Command) (s : DrawingState)
    (cs : List Command) :
    commandsFrom data before s cs = (visitsFrom before s cs).filterMap (Visit.task? data) := by
  induction cs generalizing before s with
  | nil => rfl
  | cons c after ih =>
      rw [commandsFrom, ih, visitsFrom, List.filterMap_eq_flatMap_toList,
        List.filterMap_eq_flatMap_toList, List.flatMap_cons]
      rfl

/-- A plan is what its visits ask for in order. -/
theorem ofCommands_eq_filterMap (data : FieldData) (start : DrawingState) (cs : List Command) :
    ofCommands data start cs = (visits start cs).filterMap (Visit.task? data) :=
  commandsFrom_eq_filterMap data [] start cs

/-- The fields that symbols are drawn for are found at the same visits. -/
theorem symbolFields_eq_filterMap (before : List Command) (s : DrawingState)
    (cs : List Command) :
    symbolFields cs = (visitsFrom before s cs).filterMap Visit.symbolField? := by
  induction cs generalizing before s with
  | nil => rfl
  | cons c after ih =>
      rw [symbolFields, ih (c :: before) (advance before s c), visitsFrom,
        List.filterMap_eq_flatMap_toList, List.filterMap_eq_flatMap_toList, List.flatMap_cons]
      rfl

/-- The visit at a place knows exactly the commands on both sides of it. -/
theorem getElem?_visitsFrom (before : List Command) (s : DrawingState) (cs : List Command)
    (j : Nat) :
    (visitsFrom before s cs)[j]? = cs[j]?.map fun c =>
      ⟨(cs.take j).reverse ++ before, stateFrom before s (cs.take j), c, cs.drop (j + 1)⟩ := by
  induction cs generalizing before s j with
  | nil => rfl
  | cons c after ih =>
      cases j with
      | zero => rfl
      | succ j =>
          simp only [visitsFrom, List.getElem?_cons_succ, ih, List.take_succ_cons,
            List.reverse_cons, List.append_assoc, List.singleton_append, stateFrom,
            List.drop_succ_cons]

theorem getElem?_visits (start : DrawingState) (cs : List Command) (j : Nat) :
    (visits start cs)[j]? = cs[j]?.map fun c =>
      ⟨(cs.take j).reverse, stateFrom [] start (cs.take j), c, cs.drop (j + 1)⟩ := by
  simpa only [visits, List.append_nil] using getElem?_visitsFrom [] start cs j

theorem length_visitsFrom (before : List Command) (s : DrawingState) (cs : List Command) :
    (visitsFrom before s cs).length = cs.length := by
  induction cs generalizing before s with
  | nil => rfl
  | cons c after ih => rw [visitsFrom, List.length_cons, List.length_cons, ih]

/-- What the command at a place of a stream asks for. -/
def taskAt? (data : FieldData) (start : DrawingState) (cs : List Command) (j : Nat) :
    Option Task :=
  (visits start cs)[j]?.bind (Visit.task? data)

/-- A plan is what the places of its stream ask for. -/
theorem ofCommands_eq_filterMap_range (data : FieldData) (start : DrawingState)
    (cs : List Command) :
    ofCommands data start cs = (List.range cs.length).filterMap (taskAt? data start cs) := by
  rw [ofCommands_eq_filterMap, Scan.filterMap_eq_filterMap_range, visits, length_visitsFrom]
  rfl

/-! ## Texts of their own -/

theorem ownText?_eq_some_iff {before : List Command} {c : Command} {text : String} :
    ownText? before c = some text ↔ c = .fieldData text ∧ text ≠ "" ∧
      Command.declaredWithin Command.lookback before = false := by
  cases c with
  | fieldData t =>
      by_cases ht : t = ""
      · constructor
        · simp [ownText?, ht]
        · rintro ⟨h, hne, _⟩
          exact absurd (Command.fieldData.inj h ▸ ht) hne
      · by_cases hw : Command.declaredWithin Command.lookback before = true
        · simp [ownText?, hw]
        · rw [Bool.not_eq_true] at hw
          simp only [ownText?, hw, ht, ne_eq, not_false_eq_true, decide_true, Bool.not_false,
            Bool.and_self, if_true, Option.some.injEq, Command.fieldData.injEq]
          constructor
          · rintro rfl
            exact ⟨rfl, ht, trivial⟩
          · exact And.left
  | _ => simp [ownText?]

/-- A command that is no text of its own moves the painting scan on by its rules alone. -/
theorem advance_eq {before : List Command} {c : Command} (h : ownText? before c = none)
    (s : DrawingState) : advance before s c = s.advance .painting c := by
  simp [advance, h]

theorem ownText?_eq_none {before : List Command} {c : Command}
    (h : ∀ text, c ≠ .fieldData text) : ownText? before c = none := by
  cases c with
  | fieldData text => exact absurd rfl (h text)
  | _ => rfl

/-- Right after a declaration no text stands on its own. -/
theorem ownText?_after_fieldNumber (n : Int) (before : List Command) (c : Command) :
    ownText? (.fieldNumber n :: before) c = none := by
  cases c <;> simp [ownText?, Command.declaredWithin, Command.lookback, Command.declares?]

/-- A symbol's command asks for a symbol where the state stands, or only reports. -/
theorem symbolTask_cases (data : FieldData) (place : Nat) (after : List Command)
    (s : DrawingState) :
    symbolTask data place after s = .symbolWithoutField place ∨
      (∃ n, symbolTask data place after s = .symbolWithoutData n) ∨
      ∃ symbol, symbolTask data place after s = .symbol symbol s.x s.y := by
  unfold symbolTask
  split
  · exact Or.inl rfl
  · split
    · exact Or.inr (Or.inl ⟨_, rfl⟩)
    · exact Or.inr (Or.inr ⟨_, rfl⟩)

theorem symbolTask_ne_text (data : FieldData) (place : Nat) (after : List Command)
    (s : DrawingState) (text : String) (layout : Layout) :
    symbolTask data place after s ≠ .text text layout := by
  obtain h | ⟨n, h⟩ | ⟨symbol, h⟩ := symbolTask_cases data place after s <;> simp [h]

/-- A command asks for a text exactly if it is a text of its own. -/
theorem task?_eq_text_iff {data : FieldData} {before after : List Command} {s : DrawingState}
    {c : Command} {text : String} {layout : Layout} :
    task? data before after s c = some (.text text layout) ↔
      ownText? before c = some text ∧ layout = s.toLayout := by
  cases c with
  | fieldData t =>
      simp only [task?, Option.map_eq_some_iff, Task.text.injEq]
      constructor
      · rintro ⟨own, hown, rfl, rfl⟩
        exact ⟨hown, rfl⟩
      · rintro ⟨hown, rfl⟩
        exact ⟨text, hown, rfl, rfl⟩
  | code128 => simp [task?, ownText?, symbolTask_ne_text]
  | _ => simp [task?, ownText?]

/-! ## The field after a symbol -/

/-- What follows the next declaration does not matter to a symbol. -/
theorem nextField?_append (lead : List Command) (n : Int) (after : List Command) :
    Command.nextField? (lead ++ .fieldNumber n :: after) =
      Command.nextField? (lead ++ [.fieldNumber n]) := by
  induction lead with
  | nil => rfl
  | cons c rest ih =>
      cases c with
      | fieldSeparator => exact ih
      | _ => rfl

theorem symbolFields_append (lead : List Command) (n : Int) (after : List Command) :
    symbolFields (lead ++ .fieldNumber n :: after) =
      symbolFields (lead ++ [.fieldNumber n]) ++ symbolFields after := by
  induction lead with
  | nil => rfl
  | cons c rest ih =>
      have hc : symbolField? (rest ++ .fieldNumber n :: after) c =
          symbolField? (rest ++ [.fieldNumber n]) c := by
        cases c with
        | code128 height flag => exact nextField?_append rest n after
        | _ => rfl
      simp only [List.cons_append, symbolFields, hc, ih, List.append_assoc]

/-- A field follows a place exactly if only separators stand before its declaration. -/
theorem nextField?_eq_some_iff {after : List Command} {n : Int} :
    Command.nextField? after = some n ↔
      ∃ k rest, after = List.replicate k .fieldSeparator ++ .fieldNumber n :: rest := by
  constructor
  · intro h
    induction after with
    | nil => simp [Command.nextField?] at h
    | cons c rest ih =>
        cases c with
        | fieldNumber m =>
            have hm : m = n := by simpa [Command.nextField?] using h
            exact ⟨0, rest, by simp [hm]⟩
        | fieldSeparator =>
            obtain ⟨k, tail, ht⟩ := ih h
            exact ⟨k + 1, tail, by simp [ht, List.replicate_succ]⟩
        | _ => simp [Command.nextField?] at h
  · rintro ⟨k, rest, rfl⟩
    induction k with
    | zero => rfl
    | succ k ih => exact ih

/-- Symbols are drawn for a field exactly if one stands right before its declaration, separators
between them apart. -/
theorem mem_symbolFields_iff {cs : List Command} {n : Int} :
    n ∈ symbolFields cs ↔ ∃ before height flag k after, cs = before ++
      .code128 height flag :: (List.replicate k .fieldSeparator ++ .fieldNumber n :: after) := by
  constructor
  · intro h
    induction cs with
    | nil => simp [symbolFields] at h
    | cons c rest ih =>
        rcases List.mem_append.mp h with hc | hr
        · cases c with
          | code128 height flag =>
              have hn : Command.nextField? rest = some n := by
                simpa [symbolField?] using hc
              obtain ⟨k, after, hk⟩ := nextField?_eq_some_iff.mp hn
              exact ⟨[], height, flag, k, after, by simp [hk]⟩
          | _ => simp [symbolField?] at hc
        · obtain ⟨before, height, flag, k, after, hb⟩ := ih hr
          exact ⟨c :: before, height, flag, k, after, by simp [hb]⟩
  · rintro ⟨before, height, flag, k, after, rfl⟩
    induction before with
    | nil =>
        have hn : Command.nextField?
            (List.replicate k .fieldSeparator ++ .fieldNumber n :: after) = some n :=
          nextField?_eq_some_iff.mpr ⟨k, after, rfl⟩
        simp [symbolFields, symbolField?, hn]
    | cons c rest ih => exact List.mem_append_right _ ih

end Plan

end LabelPress
