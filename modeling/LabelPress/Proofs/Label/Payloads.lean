import LabelPress.Label.Conversion
import LabelPress.Proofs.Field.Bindings
import LabelPress.Proofs.Stream.Visits

/-!
# Texts that are used twice

Binding looks back to a declaration across any number of separators, painting only across the last
few commands. The two agree on whose a text is unless more separators stand between a declaration
and its text than painting looks back; such a text is bound to the field and painted on its own.
-/

namespace LabelPress.Label

open Plan

/-- A text at a place is bound to a field. -/
def BoundAt (cs : List Command) (j : Nat) (text : String) : Prop :=
  ∃ n, FieldData.bindingAt? cs j = some (n, text)

/-- A text at a place is painted on its own. -/
def PaintedAt (data : FieldData) (start : DrawingState) (cs : List Command) (j : Nat)
    (text : String) : Prop :=
  ∃ layout, taskAt? data start cs j = some (.text text layout)

/-- A text is painted on its own exactly if it is not empty and no declaration stands within the
lookback. -/
theorem paintedAt_iff {data : FieldData} {start : DrawingState} {cs : List Command} {j : Nat}
    {text : String} :
    PaintedAt data start cs j text ↔ cs[j]? = some (.fieldData text) ∧ text ≠ "" ∧
      Command.declaredWithin Command.lookback (cs.take j).reverse = false := by
  rw [PaintedAt, taskAt?, getElem?_visits]
  cases hc : cs[j]? with
  | none => simp
  | some c =>
      simp only [Option.map_some, Option.bind_some, Visit.task?, task?_eq_text_iff,
        ownText?_eq_some_iff, Option.some.injEq, exists_and_left, exists_eq, and_true]

/-- The lookback sees past fewer separators than it is long. -/
theorem declaredWithin_separators (window k : Nat) (n : Int) (before : List Command) :
    Command.declaredWithin window (List.replicate k .fieldSeparator ++ .fieldNumber n :: before) =
      false ↔ window ≤ k := by
  induction k generalizing window with
  | zero => cases window <;> simp [Command.declaredWithin, Command.declares?]
  | succ k ih =>
      cases window with
      | zero => simp [Command.declaredWithin]
      | succ window =>
          have hstep : Command.declaredWithin (window + 1)
              (List.replicate (k + 1) .fieldSeparator ++ .fieldNumber n :: before) =
                Command.declaredWithin window
                  (List.replicate k .fieldSeparator ++ .fieldNumber n :: before) := rfl
          rw [hstep, ih, Nat.succ_le_succ_iff]

theorem reverse_separators (earlier : List Command) (n : Int) (k : Nat) :
    (earlier ++ Command.fieldNumber n :: List.replicate k .fieldSeparator).reverse =
      List.replicate k .fieldSeparator ++ .fieldNumber n :: earlier.reverse := by
  simp

/-- A text is bound and painted at once exactly if it is not empty and as many separators as
painting looks back, or more, stand between a declaration and it. -/
theorem boundAt_and_paintedAt_iff {data : FieldData} {start : DrawingState} {cs : List Command}
    {j : Nat} {text : String} :
    BoundAt cs j text ∧ PaintedAt data start cs j text ↔
      cs[j]? = some (.fieldData text) ∧ text ≠ "" ∧ ∃ earlier n k, Command.lookback ≤ k ∧
        cs.take j = earlier ++ .fieldNumber n :: List.replicate k .fieldSeparator := by
  rw [paintedAt_iff]
  constructor
  · rintro ⟨⟨n, hn⟩, hc, ht, hw⟩
    obtain ⟨earlier, k, hk⟩ :=
      FieldData.awaitAll_eq_some_iff.mp (FieldData.bindingAt?_eq_some_iff.mp hn).2
    rw [hk, reverse_separators, declaredWithin_separators] at hw
    exact ⟨hc, ht, earlier, n, k, hw, hk⟩
  · rintro ⟨hc, ht, earlier, n, k, hw, hk⟩
    have hwait : FieldData.awaitAll none (cs.take j) = some n :=
      FieldData.awaitAll_eq_some_iff.mpr ⟨earlier, k, hk⟩
    refine ⟨⟨n, FieldData.bindingAt?_eq_some_iff.mpr ⟨hc, hwait⟩⟩, hc, ht, ?_⟩
    rw [hk, reverse_separators, declaredWithin_separators]
    exact hw

/-- No text of a stream is both bound and painted exactly if, wherever only separators stand between
a declaration and a text, the text is empty or the separators are fewer than painting looks back. -/
theorem not_paintedAt_of_boundAt_iff (data : FieldData) (start : DrawingState)
    (cs : List Command) :
    (∀ j text, BoundAt cs j text → ¬ PaintedAt data start cs j text) ↔
      ∀ earlier n k text after,
        cs = earlier ++ .fieldNumber n ::
          (List.replicate k .fieldSeparator ++ .fieldData text :: after) →
        text = "" ∨ k < Command.lookback := by
  constructor
  · intro h earlier n k text after hcs
    by_contra hnot
    obtain ⟨ht, hk⟩ := not_or.mp hnot
    -- the place of the text is the length of what stands before it
    let before := earlier ++ Command.fieldNumber n :: List.replicate k .fieldSeparator
    have hsplit : cs = before ++ .fieldData text :: after := by simp [hcs, before]
    have hc : cs[before.length]? = some (.fieldData text) := by simp [hsplit]
    have htake : cs.take before.length = before := by simp [hsplit]
    obtain ⟨hb, hp⟩ := boundAt_and_paintedAt_iff.mpr
      ⟨hc, ht, earlier, n, k, Nat.le_of_not_lt hk, htake⟩
    exact h before.length text hb hp
  · intro h j text hb hp
    obtain ⟨hc, ht, earlier, n, k, hk, htake⟩ := boundAt_and_paintedAt_iff.mp ⟨hb, hp⟩
    obtain ⟨hj, hget⟩ := List.getElem?_eq_some_iff.mp hc
    have hsplit : cs = earlier ++ .fieldNumber n ::
        (List.replicate k .fieldSeparator ++ .fieldData text :: cs.drop (j + 1)) := by
      calc
        cs = cs.take j ++ cs.drop j := (List.take_append_drop j cs).symm
        _ = cs.take j ++ .fieldData text :: cs.drop (j + 1) := by
          rw [List.drop_eq_getElem_cons hj, hget]
        _ = _ := by rw [htake, List.append_assoc, List.cons_append]
    exact (h earlier n k text _ hsplit).elim ht (Nat.not_lt_of_le hk)

/-- A text after three separators is bound and painted, so it stands on the label twice. -/
theorem boundAt_and_paintedAt_three :
    let cs := [.fieldOrigin 5 5, .fieldNumber 1, .fieldSeparator, .fieldSeparator,
      .fieldSeparator, .fieldData "x"]
    BoundAt cs 5 "x" ∧ PaintedAt (FieldData.ofCommands cs) .initial cs 5 "x" ∧
      plan .initial cs = [.text "x" ⟨5, 5, 30, 30, false⟩, .text "x" ⟨5, 5, 30, 30, false⟩] :=
  ⟨⟨1, by decide⟩, ⟨⟨5, 5, 30, 30, false⟩, by decide +kernel⟩, by decide +kernel⟩

end LabelPress.Label
