import LabelPress.Label.Conversion
import LabelPress.Proofs.Field.Bindings
import LabelPress.Proofs.Field.Declarations
import LabelPress.Proofs.Painting.Performed
import LabelPress.Proofs.Stream.Reversals
import LabelPress.Proofs.Stream.Visits

/-!
# What reversals invert

The flag of a reversal is carried twice, once while layouts are collected and once while items are
painted, under rules of their own. Each scan lets a reversal invert one thing at most, but one
reversal can invert a thing in each.
-/

namespace LabelPress

open Scan DrawingState

/-- Whether a task paints something inverted. -/
def Task.isInverted : Task → Bool
  | .box _ _ _ reverse => reverse
  | .text _ layout => layout.reverse
  | _ => false

/-- Whether a command uses up the flag while items are painted: a box, or a text of its own. -/
def Plan.takesFlag (before : List Command) : Command → Bool
  | .graphicBox _ => true
  | c => (ownText? before c).isSome

/-- Whether a command uses up the flag for a text while layouts are collected: the first declaration
of a field in the template, if the text of the field is painted. -/
def FieldLayouts.takesFlag (shows : Int → Bool) (before : List Command) : Command → Bool
  | .fieldNumber n => !before.any Command.isRecall && .fieldNumber n ∉ before && shows n
  | _ => false

/-- Whether a field has a text to paint, and no symbol that takes its place. -/
def FieldData.showsText (data : FieldData) (drawn : List Int) (n : Int) : Bool :=
  (data.get? n).any (fun text => text ≠ "") && n ∉ drawn

namespace Plan

/-! ## While items are painted -/

/-- A command asks for something inverted exactly if it uses up a raised flag. -/
theorem countP_isInverted_task? (data : FieldData) (before after : List Command) (s : DrawingState)
    (c : Command) :
    (task? data before after s c).toList.countP Task.isInverted =
      (s.reverse && takesFlag before c).toNat := by
  cases c with
  | graphicBox b => cases h : s.reverse <;> simp [task?, takesFlag, Task.isInverted, h]
  | code128 height flag =>
      have hsymbol : ∀ t, (symbolTask data before.length after t).isInverted = false := by
        intro t
        obtain h | ⟨n, h⟩ | ⟨symbol, h⟩ := symbolTask_cases data before.length after t <;>
          rw [h] <;> rfl
      simp [task?, takesFlag, ownText?, hsymbol]
  | fieldData text =>
      cases ht : ownText? before (.fieldData text) <;> cases h : s.reverse <;>
        simp [task?, takesFlag, Task.isInverted, ht, h]
  | _ => simp [task?, takesFlag, ownText?]

/-- The flag of the state is the flag of the scan. -/
theorem reverse_advance (before : List Command) (s : DrawingState) (c : Command) :
    (advance before s c).reverse =
      flagAfter takesFlag ResetRules.painting.resets before s.reverse c := by
  cases c with
  | fieldData text =>
      cases ht : ownText? before (.fieldData text) <;> cases h : s.reverse <;>
        simp [advance, DrawingState.advance, flagAfter, takesFlag, upright, ht, h,
          ResetRules.resets]
  | _ =>
      simp [advance, DrawingState.advance, flagAfter, takesFlag, ownText?, ResetRules.resets]

/-- The inverted items of commands are the commands that use up a raised flag. -/
theorem countP_isInverted_commandsFrom (data : FieldData) (before : List Command)
    (s : DrawingState) (cs : List Command) :
    (commandsFrom data before s cs).countP Task.isInverted =
      taken takesFlag ResetRules.painting.resets before s.reverse cs := by
  induction cs generalizing before s with
  | nil => rfl
  | cons c after ih =>
      rw [commandsFrom, List.countP_append, countP_isInverted_task?, ih, reverse_advance, taken]

end Plan

namespace FieldLayouts

/-! ## While layouts are collected -/

variable {shows : Int → Bool}

/-- After a recall no declaration counts. -/
theorem taken_eq_zero_of_recall {before : List Command} (h : before.any Command.isRecall = true)
    (flag : Bool) (cs : List Command) :
    taken (takesFlag shows) ResetRules.layout.resets before flag cs = 0 := by
  apply taken_eq_zero (P := fun before => before.any Command.isRecall = true) _ _ h
  · intro before c hb
    simp [hb]
  · intro before c hb
    cases c <;> simp [takesFlag, hb]

/-- The flag of the state is the flag of the scan. -/
theorem reverse_advance_layout (shows : Int → Bool) (before : List Command) (s : DrawingState)
    (c : Command) :
    (s.advance .layout c).reverse =
      flagAfter (takesFlag shows) ResetRules.layout.resets before s.reverse c := by
  cases c <;>
    simp [DrawingState.advance, flagAfter, takesFlag, ResetRules.resets, ResetRules.layout]

/-- A declaration adds an inverted layout of a shown text exactly if it uses up a raised flag. -/
theorem countP_putNew {layouts : FieldLayouts} {before : List Command}
    (hrecall : before.any Command.isRecall = false) {n : Int}
    (hkey : n ∈ Entries.keys layouts ↔ .fieldNumber n ∈ before) (s : DrawingState) :
    (layouts.putNew n s.toLayout).countP (fun e => shows e.1 && e.2.reverse) =
      layouts.countP (fun e => shows e.1 && e.2.reverse) +
        (s.reverse && takesFlag shows before (.fieldNumber n)).toNat := by
  rw [Entries.putNew]
  by_cases hn : Command.fieldNumber n ∈ before
  · rw [if_pos (Entries.get?_isSome_iff.mpr (hkey.mpr hn))]
    simp [takesFlag, hn]
  · rw [if_neg (fun h => hn (hkey.mp (Entries.get?_isSome_iff.mp h))), List.countP_append]
    cases hs : shows n <;> cases hr : s.reverse <;> simp [takesFlag, hn, hrecall, hs, hr]

theorem mem_keys_putNew {layouts : FieldLayouts} {before : List Command}
    (hkeys : ∀ n, n ∈ Entries.keys layouts ↔ .fieldNumber n ∈ before) (m : Int)
    (layout : Layout) (n : Int) :
    n ∈ Entries.keys (layouts.putNew m layout) ↔ .fieldNumber n ∈ .fieldNumber m :: before := by
  rw [← Entries.get?_isSome_iff, Entries.get?_putNew, Option.isSome_or, Bool.or_eq_true,
    Entries.get?_isSome_iff, hkeys, List.mem_cons, or_comm]
  by_cases hm : m = n
  · simp [hm]
  · simp [hm, Ne.symm hm]

/-- The fields with an inverted layout and a shown text are the declarations that use up a raised
flag. -/
theorem countP_putAllNew_declarations {layouts : FieldLayouts} {before : List Command}
    (hrecall : before.any Command.isRecall = false)
    (hkeys : ∀ n, n ∈ Entries.keys layouts ↔ .fieldNumber n ∈ before) (s : DrawingState)
    (cs : List Command) :
    (Entries.putAllNew layouts (declarations s (Command.template cs))).countP
        (fun e => shows e.1 && e.2.reverse) =
      layouts.countP (fun e => shows e.1 && e.2.reverse) +
        taken (takesFlag shows) ResetRules.layout.resets before s.reverse cs := by
  induction cs generalizing layouts before s with
  | nil => rfl
  | cons c after ih =>
      cases hc : c.isRecall with
      | true =>
          have htemplate : Command.template (c :: after) = [] :=
            List.takeWhile_cons_of_neg (by simp [hc])
          have hnot : takesFlag shows before c = false := by
            cases c <;> simp [Command.isRecall, takesFlag] at hc ⊢
          have hend : (c :: before).any Command.isRecall = true := by simp [hc]
          rw [htemplate, taken, hnot, taken_eq_zero_of_recall hend]
          simp [declarations, Entries.putAllNew]
      | false =>
          have htemplate : Command.template (c :: after) = c :: Command.template after :=
            List.takeWhile_cons_of_pos (by simp [hc])
          have hon : (c :: before).any Command.isRecall = false := by simp [hc, hrecall]
          rw [htemplate, declarations, taken, ← reverse_advance_layout]
          cases hd : c.declares? with
          | none =>
              have hnot : takesFlag shows before c = false := by
                cases c <;> simp [Command.declares?, takesFlag] at hd ⊢
              have hkeep : ∀ n, n ∈ Entries.keys layouts ↔ .fieldNumber n ∈ c :: before := by
                intro n
                rw [hkeys, List.mem_cons]
                cases c <;> simp [Command.declares?] at hd ⊢
              rw [hnot, Bool.and_false, Bool.toNat_false, Nat.zero_add]
              exact ih hon hkeep _
          | some m =>
              rw [Command.declares?_eq_some_iff] at hd
              subst hd
              rw [← Nat.add_assoc, ← countP_putNew hrecall (hkeys m)]
              exact ih hon (mem_keys_putNew hkeys m _) _

/-- The inverted layouts of shown texts are the declarations that use up a raised flag. -/
theorem countP_ofCommands (start : DrawingState) (cs : List Command) :
    (ofCommands start cs).countP (fun e => shows e.1 && e.2.reverse) =
      taken (takesFlag shows) ResetRules.layout.resets [] start.reverse cs := by
  have hrecall : ([] : List Command).any Command.isRecall = false := rfl
  have hkeys : ∀ n, n ∈ Entries.keys ([] : FieldLayouts) ↔ .fieldNumber n ∈ ([] : List Command) :=
    fun n => by simp [Entries.keys]
  rw [ofCommands_eq_putAllNew, countP_putAllNew_declarations hrecall hkeys, List.countP_nil,
    Nat.zero_add]

end FieldLayouts

/-! ## Both scans -/

namespace Label

variable {cs : List Command}

/-- Whether a reversal comes to an item: a box, or a text of its own, stands before the next origin,
separator and reversal. -/
def servesItem (r : List Command × List Command) : Bool :=
  reaches Plan.takesFlag ResetRules.painting.resets r.1 r.2

/-- Whether a reversal comes to a field: of the boxes, declarations and reversals after it the next
is the first declaration in the template of a field whose text is painted. -/
def servesField (cs : List Command) (r : List Command × List Command) : Bool :=
  reaches (FieldLayouts.takesFlag ((FieldData.ofCommands cs).showsText (Plan.symbolFields cs)))
    ResetRules.layout.resets r.1 r.2

/-- How many reversals come to an item and to a field. -/
def servedTwice (cs : List Command) : Nat :=
  (reversals cs).countP fun r => servesItem r && servesField cs r

/-- How many reversals come to neither an item nor a field. -/
def unserved (cs : List Command) : Nat :=
  (reversals cs).countP fun r => !servesItem r && !servesField cs r

/-- The inverted items are the reversals that come to one. -/
theorem countP_isInverted_ofCommands (data : FieldData) (cs : List Command) :
    (Plan.ofCommands data .initial cs).countP Task.isInverted =
      (reversals cs).countP servesItem := by
  rw [Plan.ofCommands, Plan.countP_isInverted_commandsFrom, taken_eq fun _ => rfl]
  change 0 + _ = _
  exact Nat.zero_add _

/-- A field asks for something inverted exactly if its layout is inverted and its text is shown. -/
theorem isInverted_fieldTask? (layouts : FieldLayouts) (drawn : List Int) (n : Int)
    (text : String) :
    ((Plan.fieldTask? layouts drawn (n, text)).map Task.isInverted).getD false =
      (text ≠ "" && n ∉ drawn && (layouts.get? n).any fun l => l.reverse) := by
  by_cases ht : text = ""
  · simp [Plan.fieldTask?, ht]
  · cases hl : Entries.get? n layouts with
    | none => simp [Plan.fieldTask?, ht, hl, Task.isInverted]
    | some layout =>
        by_cases hd : n ∈ drawn
        · simp [Plan.fieldTask?, hl, hd]
        · simp [Plan.fieldTask?, ht, hl, hd, Task.isInverted]

/-- The inverted texts of fields are the inverted layouts of shown texts. -/
theorem countP_isInverted_ofFields {data : FieldData} {layouts : FieldLayouts}
    (hd : (Entries.keys data).Nodup) (hl : (Entries.keys layouts).Nodup) (drawn : List Int) :
    (Plan.ofFields data layouts drawn).countP Task.isInverted =
      layouts.countP fun e => data.showsText drawn e.1 && e.2.reverse := by
  -- a field is looked up in both tables, so it does not matter in which one it is counted
  let inverted (n : Int) : Bool :=
    data.showsText drawn n && (layouts.get? n).any fun l => l.reverse
  have hdata : (Plan.ofFields data layouts drawn).countP Task.isInverted =
      (Entries.keys data).countP inverted := by
    calc
      (Plan.ofFields data layouts drawn).countP Task.isInverted =
          data.countP (fun f => f.2 ≠ "" && f.1 ∉ drawn &&
            (layouts.get? f.1).any fun l => l.reverse) := by
        rw [Plan.ofFields, List.countP_filterMap]
        apply List.countP_congr
        intro f _
        rw [isInverted_fieldTask?]
      _ = (Entries.keys data).countP (fun n => (data.get? n).any fun text =>
            text ≠ "" && n ∉ drawn && (layouts.get? n).any fun l => l.reverse) :=
        Entries.countP_eq_countP_keys hd fun n text =>
          text ≠ "" && n ∉ drawn && (layouts.get? n).any fun l => l.reverse
      _ = (Entries.keys data).countP inverted := by
        apply List.countP_congr
        intro n _
        cases h : Entries.get? n data <;> simp [inverted, FieldData.showsText, h]
  have hlayouts : layouts.countP (fun e => data.showsText drawn e.1 && e.2.reverse) =
      (Entries.keys layouts).countP inverted := by
    rw [Entries.countP_eq_countP_keys hl fun n l => data.showsText drawn n && l.reverse]
    apply List.countP_congr
    intro n _
    cases h : Entries.get? n layouts <;> simp [inverted, h]
  rw [hdata, hlayouts]
  apply Entries.countP_keys_congr hd hl
  intro n hn
  simp only [inverted, FieldData.showsText, Bool.and_eq_true] at hn
  have hmemd : n ∈ Entries.keys data := Entries.get?_isSome_iff.mp (Option.isSome_of_any hn.1.1)
  have hmeml : n ∈ Entries.keys layouts := Entries.get?_isSome_iff.mp (Option.isSome_of_any hn.2)
  exact iff_of_true hmemd hmeml

/-- The inverted texts of fields are the reversals that come to a field. -/
theorem countP_isInverted_fields (cs : List Command) :
    (Plan.ofFields (FieldData.ofCommands cs) (FieldLayouts.ofCommands .initial cs)
        (Plan.symbolFields cs)).countP Task.isInverted =
      (reversals cs).countP (servesField cs) := by
  rw [countP_isInverted_ofFields (FieldData.nodup_keys_ofCommands cs)
      (FieldLayouts.nodup_keys_ofCommands .initial cs),
    FieldLayouts.countP_ofCommands, taken_eq fun _ => rfl]
  change 0 + _ = _
  exact Nat.zero_add _

/-- What is inverted of a label that is painted whole, with the reversals that come to nothing, is
as much as there are reversals, those that come to an item and to a field counted twice. -/
theorem countP_isInverted_plan (cs : List Command) :
    (plan .initial cs).countP Task.isInverted + unserved cs =
      cs.count .fieldReverse + servedTwice cs := by
  rw [plan, List.countP_append, countP_isInverted_ofCommands, countP_isInverted_fields, unserved,
    servedTwice, countP_add_countP, length_reversals]

/-- At most as much is inverted on a label as there are reversals, those that come to an item and to
a field counted twice. On a label that is painted to its end it is exactly as much, without the
reversals that come to neither. -/
theorem countP_isInverted_performed (files : Files.Tree) (fontPath : Option String) (c : Canvas)
    (cs : List Command) :
    (c.performed files fontPath (plan .initial cs)).countP Task.isInverted ≤
        cs.count .fieldReverse + servedTwice cs ∧
      ((paint files fontPath c cs).fault = none →
        (c.performed files fontPath (plan .initial cs)).countP Task.isInverted + unserved cs =
          cs.count .fieldReverse + servedTwice cs) := by
  have hplan := countP_isInverted_plan cs
  constructor
  · have hprefix : c.performed files fontPath (plan .initial cs) <+: plan .initial cs :=
      Canvas.performed_prefix c _
    calc
      (c.performed files fontPath (plan .initial cs)).countP Task.isInverted ≤
          (plan .initial cs).countP Task.isInverted := hprefix.sublist.countP_le
      _ ≤ cs.count .fieldReverse + servedTwice cs := by omega
  · intro h
    rw [(Canvas.performed_eq_self_iff c _).mpr h]
    exact hplan

/-- One reversal before a declaration and a box inverts the box and the text of the field. -/
theorem countP_isInverted_performed_two :
    let cs := [.fieldReverse, .fieldNumber 1, .graphicBox ⟨10, 10, 2⟩, .fieldSeparator,
      .fieldNumber 1, .fieldData "x"]
    cs.count .fieldReverse = 1 ∧
      (Canvas.small.performed .oneFont (some "f") (plan .initial cs)).countP Task.isInverted = 2 := by
  decide +kernel

end Label

end LabelPress
