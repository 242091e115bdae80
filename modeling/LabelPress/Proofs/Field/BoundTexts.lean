import LabelPress.Proofs.Entries.Places
import LabelPress.Proofs.Field.Bindings

/-!
# The texts of fields by their places

A text is bound to a field if the field was declared before it and nothing but separators stands
between the two. The data of a stream are all said by that: each field has the last text that is
bound to it, and the fields stand in the order in which texts were first bound to them. Separators
never matter.
-/

namespace LabelPress.FieldData

open Scan

variable {cs : List Command} {n : Int} {j : Nat} {text : String}

/-- The text at a place is bound to a field: the field is declared before it, and only separators
stand between the two. -/
def BoundTo (cs : List Command) (n : Int) (j : Nat) (text : String) : Prop :=
  ∃ i < j, cs[i]? = some (.fieldNumber n) ∧ cs[j]? = some (.fieldData text) ∧
    ∀ k, i < k → k < j → cs[k]? = some .fieldSeparator

/-- A field is bound for the first time at a place. -/
def FirstBoundAt (cs : List Command) (n : Int) (j : Nat) : Prop :=
  (∃ text, BoundTo cs n j text) ∧ ∀ i < j, ∀ text, ¬ BoundTo cs n i text

/-! ## One place -/

theorem await_eq_some_iff {waiting : Option Int} {c : Command} :
    await waiting c = some n ↔
      c = .fieldNumber n ∨ waiting = some n ∧ c = .fieldSeparator := by
  cases c <;> simp [await]

/-- A field waits at a place exactly if it was declared and only separators have come since. -/
theorem awaitAll_take_eq_some_iff (hj : j ≤ cs.length) :
    awaitAll none (cs.take j) = some n ↔
      Since (fun i => cs[i]? = some (.fieldNumber n)) (fun k => cs[k]? ≠ some .fieldSeparator)
        j := by
  induction j with
  | zero => exact ⟨nofun, fun h => absurd h not_since_zero⟩
  | succ j ih =>
      have hc : cs[j]? = some cs[j] := List.getElem?_eq_getElem hj
      rw [List.take_succ_eq_append_getElem hj, awaitAll_append, awaitAll_cons, awaitAll_nil,
        await_eq_some_iff, ih (Nat.le_of_succ_le hj), since_succ_iff, not_not, hc,
        Option.some.injEq, Option.some.injEq]

theorem bindingAt?_eq_some_iff_boundTo :
    bindingAt? cs j = some (n, text) ↔ BoundTo cs n j text := by
  rw [bindingAt?_eq_some_iff]
  constructor
  · rintro ⟨hc, hwait⟩
    obtain ⟨hj, -⟩ := List.getElem?_eq_some_iff.mp hc
    obtain ⟨i, hi, hn, hbetween⟩ := (awaitAll_take_eq_some_iff (Nat.le_of_lt hj)).mp hwait
    exact ⟨i, hi, hn, hc, fun k hik hkj => not_not.mp (hbetween k hik hkj)⟩
  · rintro ⟨i, hi, hn, hc, hbetween⟩
    obtain ⟨hj, -⟩ := List.getElem?_eq_some_iff.mp hc
    exact ⟨hc, (awaitAll_take_eq_some_iff (Nat.le_of_lt hj)).mpr
      ⟨i, hi, hn, fun k hik hkj => not_not.mpr (hbetween k hik hkj)⟩⟩

/-- The field that a text at a place is bound to. -/
theorem fieldAt_eq_some_iff :
    (bindingAt? cs j).map Prod.fst = some n ↔ ∃ text, BoundTo cs n j text := by
  simp only [Option.map_eq_some_iff, Prod.exists, exists_and_right, exists_eq_right,
    bindingAt?_eq_some_iff_boundTo]

theorem BoundTo.lt_length (h : BoundTo cs n j text) : j < cs.length := by
  obtain ⟨i, -, -, hc, -⟩ := h
  exact (List.getElem?_eq_some_iff.mp hc).1

/-! ## The whole stream -/

theorem ofCommands_eq_putAll_filterMap (cs : List Command) :
    ofCommands cs = Entries.putAll [] ((List.range cs.length).filterMap (bindingAt? cs)) := by
  rw [ofCommands, bindings_eq_filterMap]

theorem keys_ofCommands (cs : List Command) :
    Entries.keys (ofCommands cs) =
      ((List.range cs.length).filterMap fun j => (bindingAt? cs j).map Prod.fst).eraseDups := by
  rw [ofCommands_eq_putAll_filterMap, Entries.keys_putAll, Entries.keys, List.map_filterMap]

theorem mem_keys_ofCommands_iff :
    n ∈ Entries.keys (ofCommands cs) ↔ ∃ j text, BoundTo cs n j text := by
  rw [keys_ofCommands, List.mem_eraseDups, mem_filterMap_range_iff]
  simp only [fieldAt_eq_some_iff]
  exact ⟨fun ⟨j, _, h⟩ => ⟨j, h⟩, fun ⟨j, text, h⟩ => ⟨j, h.lt_length, text, h⟩⟩

/-- A field has the text that is bound to it at the last place. -/
theorem get?_ofCommands_eq_some_iff_last :
    Entries.get? n (ofCommands cs) = some text ↔
      ∃ j, BoundTo cs n j text ∧ ∀ k other, BoundTo cs n k other → k ≤ j := by
  rw [ofCommands_eq_putAll_filterMap, Entries.get?_putAll_eq_some_iff_since]
  simp only [Since, bindingAt?_eq_some_iff_boundTo, fieldAt_eq_some_iff]
  constructor
  · rintro ⟨j, -, hj, hlast⟩
    refine ⟨j, hj, fun k other hk => Nat.le_of_not_lt fun hlt => ?_⟩
    exact hlast k hlt hk.lt_length ⟨other, hk⟩
  · rintro ⟨j, hj, hlast⟩
    refine ⟨j, hj.lt_length, hj, fun k hjk _ ⟨other, hk⟩ => ?_⟩
    exact absurd (hlast k other hk) (Nat.not_le_of_lt hjk)

theorem firstAt_iff_firstBoundAt :
    Entries.FirstAt (fun j => (bindingAt? cs j).map Prod.fst) n j ↔ FirstBoundAt cs n j := by
  simp only [Entries.FirstAt, FirstBoundAt, ne_eq, fieldAt_eq_some_iff, not_exists]

/-- Without its separators a stream binds the same. -/
theorem bindings_filter_separators (waiting : Option Int) (cs : List Command) :
    bindings waiting (cs.filter (· ≠ .fieldSeparator)) = bindings waiting cs := by
  induction cs generalizing waiting with
  | nil => rfl
  | cons c rest ih =>
      rw [bindings_cons]
      by_cases hc : c = .fieldSeparator
      · subst hc
        rw [List.filter_cons_of_neg (by simp), ih]
        rfl
      · rw [List.filter_cons_of_pos (by simpa using hc), bindings_cons, ih]

/-- The data of a stream: a field has data exactly if a text is bound to it, and then the last such
text; the fields stand in the order of their first bound texts, each once; and streams that differ
in separators only have the same data. -/
theorem ofCommands_by_places (cs : List Command) :
    (∀ n, n ∈ Entries.keys (ofCommands cs) ↔ ∃ j text, BoundTo cs n j text) ∧
    (∀ n text, Entries.get? n (ofCommands cs) = some text ↔
      ∃ j, BoundTo cs n j text ∧ ∀ k other, BoundTo cs n k other → k ≤ j) ∧
    (Entries.keys (ofCommands cs)).Nodup ∧
    ((Entries.keys (ofCommands cs)).Pairwise fun m n =>
      ∀ i j, FirstBoundAt cs m i → FirstBoundAt cs n j → i < j) ∧
    ∀ ds : List Command,
      ds.filter (· ≠ .fieldSeparator) = cs.filter (· ≠ .fieldSeparator) →
        ofCommands ds = ofCommands cs := by
  refine ⟨fun n => mem_keys_ofCommands_iff, fun n text => get?_ofCommands_eq_some_iff_last,
    nodup_keys_ofCommands cs, ?_, fun ds h => ?_⟩
  · rw [keys_ofCommands]
    simpa only [firstAt_iff_firstBoundAt] using
      Entries.pairwise_eraseDups_filterMap_range
        (fun j => (bindingAt? cs j).map Prod.fst) cs.length
  · rw [ofCommands, ← bindings_filter_separators, h, bindings_filter_separators, ofCommands]

end LabelPress.FieldData
