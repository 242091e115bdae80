import LabelPress.Proofs.Field.LayoutPlaces
import LabelPress.Proofs.Stream.Visits
import Mathlib.Data.Nat.Find

/-!
# The two scans agree

Layouts are collected in one scan and items are painted in another. Each resets the reverse flag by
rules of its own, and the scan that paints resets it after a text of its own as well. Nothing else
that a command sets depends on the flag, so at every place both scans hold the same but for the
flag, and a field is laid out where the scan that paints stands when it meets the declaration.
-/

namespace LabelPress

namespace DrawingState

/-- What a command sets does not depend on the reverse flag. -/
theorem upright_advance (rules : ResetRules) (s : DrawingState) (c : Command) :
    (s.advance rules c).upright = s.upright.set c := by
  cases c <;> rfl

/-- What commands set depends neither on the reverse flag nor on the rules that reset it. -/
theorem upright_run (rules : ResetRules) (s : DrawingState) (cs : List Command) :
    (s.run rules cs).upright = cs.foldl set s.upright := by
  induction cs generalizing s with
  | nil => rfl
  | cons c rest ih => rw [run_cons, ih, upright_advance, List.foldl_cons]

/-- States that differ in the reverse flag at most have one position and one font. -/
theorem layout_eq_of_upright_eq {s t : DrawingState} (h : s.upright = t.upright) :
    s.x = t.x ∧ s.y = t.y ∧ s.fontHeight = t.fontHeight ∧ s.fontWidth = t.fontWidth := by
  have hlayout : s.upright.toLayout = t.upright.toLayout := congrArg toLayout h
  obtain ⟨hx, hy, hheight, hwidth, -⟩ := Layout.mk.inj hlayout
  exact ⟨hx, hy, hheight, hwidth⟩

end DrawingState

namespace Plan

/-- While items are painted a text of its own resets the flag, and only the flag. -/
theorem upright_advance (before : List Command) (s : DrawingState) (c : Command) :
    (advance before s c).upright = s.upright.set c := by
  rw [advance, DrawingState.upright_advance]
  split <;> rfl

theorem upright_stateFrom (before : List Command) (s : DrawingState) (cs : List Command) :
    (stateFrom before s cs).upright = cs.foldl DrawingState.set s.upright := by
  induction cs generalizing before s with
  | nil => rfl
  | cons c rest ih => rw [stateFrom, ih, upright_advance, List.foldl_cons]

/-- At every place of a stream the scan that paints holds what a scan under any rules holds, but for
the flag. -/
theorem upright_stateFrom_eq_upright_run (rules : DrawingState.ResetRules) (start : DrawingState)
    (cs : List Command) (j : Nat) :
    (stateFrom [] start (cs.take j)).upright = (start.run rules (cs.take j)).upright := by
  rw [upright_stateFrom, DrawingState.upright_run]

end Plan

namespace FieldLayouts

open Command

variable {start : DrawingState} {cs : List Command} {n : Int} {j : Nat}

theorem exists_firstDeclaredAt (h : DeclaredAt cs n j) : ∃ i, FirstDeclaredAt cs n i := by
  classical
  have hsome : ∃ i, DeclaredAt cs n i := ⟨j, h⟩
  exact ⟨Nat.find hsome, firstDeclaredAt_iff.mpr
    ⟨Nat.find_spec hsome, fun _ hi => Nat.find_min hsome hi⟩⟩

/-- The layout of a field and the visit of the scan that paints to its first declaration: position
and font are the same. -/
structure MeetsAt (start : DrawingState) (cs : List Command) (n : Int) (j : Nat) (layout : Layout)
    (v : Visit) : Prop where
  visit : (Plan.visits start cs)[j]? = some v
  command : v.command = .fieldNumber n
  x : v.state.x = layout.x
  y : v.state.y = layout.y
  fontHeight : v.state.fontHeight = layout.fontHeight
  fontWidth : v.state.fontWidth = layout.fontWidth

/-- The scan that paints meets the first declaration of a field where the field is laid out. -/
theorem exists_meetsAt (start : DrawingState) (h : FirstDeclaredAt cs n j) :
    ∃ layout v, Entries.get? n (ofCommands start cs) = some layout ∧
      MeetsAt start cs n j layout v := by
  have hvisit := Plan.getElem?_visits start cs j
  rw [h.1.1, Option.map_some] at hvisit
  obtain ⟨hx, hy, hheight, hwidth⟩ := DrawingState.layout_eq_of_upright_eq
    (Plan.upright_stateFrom_eq_upright_run .layout start cs j)
  exact ⟨_, _, get?_ofCommands_of_first (firstDeclaration_of_place h),
    { visit := hvisit, command := rfl, x := hx, y := hy, fontHeight := hheight,
      fontWidth := hwidth }⟩

/-- Under any two rules a run of commands leaves states that differ in the reverse flag at most.
Every field that is declared in the template has the position and the font that the scan that paints
holds when it meets the first declaration of the field. -/
theorem scans_agree (start : DrawingState) (cs : List Command) :
    (∀ (s : DrawingState) (rules rules' : DrawingState.ResetRules),
      (s.run rules cs).upright = (s.run rules' cs).upright) ∧
    ∀ n, (∃ j, DeclaredAt cs n j) → ∃ j layout v, FirstDeclaredAt cs n j ∧
      Entries.get? n (ofCommands start cs) = some layout ∧ MeetsAt start cs n j layout v := by
  refine ⟨fun s rules rules' => ?_, fun n ⟨j, hj⟩ => ?_⟩
  · rw [DrawingState.upright_run, DrawingState.upright_run]
  · obtain ⟨i, hi⟩ := exists_firstDeclaredAt hj
    obtain ⟨layout, v, hlayout, hmeets⟩ := exists_meetsAt start hi
    exact ⟨i, layout, v, hi, hlayout, hmeets⟩

/-- A reversed field that the scan that paints meets upright: a text of its own has used the flag
up. -/
def fieldAfterOwnText : List Command :=
  [.fieldFont 40 20, .fieldOrigin 5 7, .fieldReverse, .fieldData "Ham", .fieldNumber 2,
    .recallFormat "R", .fieldNumber 2]

theorem scans_agree_fieldAfterOwnText : DeclaredAt fieldAfterOwnText 2 4 ∧
    ∃ j layout v, FirstDeclaredAt fieldAfterOwnText 2 j ∧
      Entries.get? 2 (ofCommands .initial fieldAfterOwnText) = some layout ∧
      MeetsAt .initial fieldAfterOwnText 2 j layout v := by
  have hdeclared : DeclaredAt fieldAfterOwnText 2 4 := declaredAt_iff.mp rfl
  exact ⟨hdeclared, (scans_agree .initial fieldAfterOwnText).2 2 ⟨4, hdeclared⟩⟩

end FieldLayouts

end LabelPress
