import LabelPress.Drawing.State
import LabelPress.Proofs.Stream.Places

/-!
# What stands at a place of a stream

Position, font and module width at a place are those that were set last, and the reverse flag stands
if a reversal is still in force. The scan for layouts and the scan that paints move a layout on in
the same way and differ in what ends a reversal, so what ends it is left open here.
-/

namespace LabelPress

namespace Command

/-- The position that a command sets. -/
def origin? : Command → Option (Int × Int)
  | fieldOrigin x y => some (x, y)
  | _ => none

/-- The height and width of the font that a command sets. -/
def font? : Command → Option (Int × Int)
  | fieldFont height width => some (height, width)
  | _ => none

/-- The width of a bar module that a command sets. -/
def moduleWidth? : Command → Option Int
  | moduleWidth width => some width
  | _ => none

end Command

namespace Scan

variable {α : Type} {cs : List Command} {ends : Nat → Prop}

/-- The value at a place: the one that a command set last, or the one at the start if none did. -/
def SetAt (sets : Command → Option α) (start : α) (cs : List Command) (j : Nat) (a : α) : Prop :=
  Since (fun i => cs[i]?.bind sets = some a) (fun k => cs[k]?.bind sets ≠ none) j ∨
    a = start ∧ ∀ k < j, cs[k]?.bind sets = none

/-- The flag stands at a place: a reversal is still in force, or the flag stood at the start and
nothing has ended it. -/
def RaisedAt (ends : Nat → Prop) (start : Bool) (cs : List Command) (j : Nat) : Prop :=
  Since (fun i => cs[i]? = some .fieldReverse) ends j ∨ start = true ∧ ∀ k < j, ¬ ends k

theorem SetAt.succ {sets : Command → Option α} {start a : α} {j : Nat} {c : Command}
    (h : SetAt sets start cs j a) (hc : cs[j]? = some c) :
    SetAt sets start cs (j + 1) ((sets c).getD a) := by
  have hbind : cs[j]?.bind sets = sets c := by rw [hc, Option.bind_some]
  cases hs : sets c with
  | some b => exact Or.inl (since_succ_iff.mpr (Or.inl (by simp [hbind, hs])))
  | none =>
      have hnone : cs[j]?.bind sets = none := hbind.trans hs
      rcases h with hsince | ⟨rfl, hnever⟩
      · exact Or.inl (since_succ_iff.mpr (Or.inr ⟨hsince, not_not.mpr hnone⟩))
      · exact Or.inr ⟨rfl, Nat.forall_lt_succ_right.mpr ⟨hnever, hnone⟩⟩

theorem raisedAt_succ_iff {start : Bool} {j : Nat} {c : Command} (hc : cs[j]? = some c) :
    RaisedAt ends start cs (j + 1) ↔
      c = .fieldReverse ∨ RaisedAt ends start cs j ∧ ¬ ends j := by
  rw [RaisedAt, RaisedAt, since_succ_iff, Nat.forall_lt_succ_right, hc, Option.some.injEq,
    ← and_assoc, or_assoc, ← or_and_right]

/-- A value that each command sets, or leaves as it is, is the one that was set last. -/
theorem setAt_of_steps {sets : Command → Option α} (value : Nat → α)
    (hstep : ∀ j c, cs[j]? = some c → value (j + 1) = (sets c).getD (value j)) {j : Nat}
    (hj : j ≤ cs.length) : SetAt sets (value 0) cs j (value j) := by
  induction j with
  | zero => exact Or.inr ⟨rfl, nofun⟩
  | succ j ih =>
      have hc : cs[j]? = some cs[j] := List.getElem?_eq_getElem hj
      rw [hstep j _ hc]
      exact (ih (Nat.le_of_succ_le hj)).succ hc

/-- A flag that reversals raise and that something ends stands exactly while a reversal is in
force. -/
theorem raisedAt_of_steps (flag : Nat → Bool)
    (hstep : ∀ j c, cs[j]? = some c →
      (flag (j + 1) = true ↔ c = .fieldReverse ∨ flag j = true ∧ ¬ ends j)) {j : Nat}
    (hj : j ≤ cs.length) : flag j = true ↔ RaisedAt ends (flag 0) cs j := by
  induction j with
  | zero => simp [RaisedAt, not_since_zero]
  | succ j ih =>
      have hc : cs[j]? = some cs[j] := List.getElem?_eq_getElem hj
      rw [hstep j _ hc, raisedAt_succ_iff hc, ih (Nat.le_of_succ_le hj)]

/-- A layout at a place: the position and the font set last, reversed while a reversal is in
force. -/
structure LaidAt (ends : Nat → Prop) (start : Layout) (cs : List Command) (j : Nat)
    (layout : Layout) : Prop where
  origin : SetAt Command.origin? (start.x, start.y) cs j (layout.x, layout.y)
  font : SetAt Command.font? (start.fontHeight, start.fontWidth) cs j
    (layout.fontHeight, layout.fontWidth)
  reverse : layout.reverse = true ↔ RaisedAt ends start.reverse cs j

/-- How a command moves a layout on. -/
structure Moves (c : Command) (ended : Prop) (layout next : Layout) : Prop where
  origin : (next.x, next.y) = c.origin?.getD (layout.x, layout.y)
  font : (next.fontHeight, next.fontWidth) =
    c.font?.getD (layout.fontHeight, layout.fontWidth)
  reverse : next.reverse = true ↔ c = .fieldReverse ∨ layout.reverse = true ∧ ¬ ended

/-- A layout that every command moves on is at each place what the commands before it leave. -/
theorem laidAt_of_moves (layout : Nat → Layout)
    (hmoves : ∀ j c, cs[j]? = some c → Moves c (ends j) (layout j) (layout (j + 1))) {j : Nat}
    (hj : j ≤ cs.length) : LaidAt ends (layout 0) cs j (layout j) where
  origin := setAt_of_steps (fun j => ((layout j).x, (layout j).y))
    (fun i c hc => (hmoves i c hc).origin) hj
  font := setAt_of_steps (fun j => ((layout j).fontHeight, (layout j).fontWidth))
    (fun i c hc => (hmoves i c hc).font) hj
  reverse := raisedAt_of_steps (fun j => (layout j).reverse)
    (fun i c hc => (hmoves i c hc).reverse) hj

/-- Under any rules a command moves the layout of a state on, and what resets the flag ends it. -/
theorem moves_advance (rules : DrawingState.ResetRules) (s : DrawingState) (c : Command) :
    Moves c (rules.resets c = true) s.toLayout (s.advance rules c).toLayout where
  origin := by cases c <;> rfl
  font := by cases c <;> rfl
  reverse := by simp [DrawingState.advance]

end Scan

end LabelPress
