import Mathlib.Order.Basic

/-!
# Places of a stream

Going through a stream is going through its places. What a scan knows at a place can be said by the
places before it: something has happened at one of them, and nothing has ended it since.
-/

namespace LabelPress.Scan

/-- Going through a list is going through its places. -/
theorem filterMap_eq_filterMap_range {α β : Type} (f : α → Option β) (xs : List α) :
    xs.filterMap f = (List.range xs.length).filterMap fun j => xs[j]?.bind f := by
  induction xs with
  | nil => rfl
  | cons x rest ih =>
      rw [List.length_cons, List.range_succ_eq_map, List.filterMap_cons, List.filterMap_cons,
        List.filterMap_map, ih]
      rfl

theorem mem_filterMap_range_iff {α : Type} {f : Nat → Option α} {size : Nat} {a : α} :
    a ∈ (List.range size).filterMap f ↔ ∃ j < size, f j = some a := by
  simp only [List.mem_filterMap, List.mem_range]

/-- What is found while going through places is found at a place, after what is found before it. -/
theorem exists_place_of_filterMap_range {α : Type} {f : Nat → Option α} {size : Nat}
    {pre post : List α} {a : α} (h : (List.range size).filterMap f = pre ++ a :: post) :
    ∃ j < size, f j = some a ∧ (List.range j).filterMap f = pre := by
  obtain ⟨before, others, hrange, rfl, hothers⟩ := List.filterMap_eq_append_iff.mp h
  obtain ⟨skipped, j, after, rfl, hskipped, hj, -⟩ := List.filterMap_eq_cons_iff.mp hothers
  rw [← List.append_assoc, List.range_eq_range'] at hrange
  obtain ⟨k, hk, hbefore, hafter⟩ := List.range'_eq_append_iff.mp hrange
  obtain ⟨hplace, hpos, -⟩ := List.range'_eq_cons_iff.mp hafter.symm
  obtain rfl : k = j := by omega
  refine ⟨k, by omega, hj, ?_⟩
  rw [List.range_eq_range', ← hbefore, List.filterMap_append,
    List.filterMap_eq_nil_iff.mpr hskipped, List.append_nil]

variable {happens ends : Nat → Prop} {j : Nat}

/-- Something has happened before a place, and nothing between the two has ended it. -/
def Since (happens ends : Nat → Prop) (j : Nat) : Prop :=
  ∃ i < j, happens i ∧ ∀ k, i < k → k < j → ¬ ends k

theorem not_since_zero : ¬ Since happens ends 0 := by
  rintro ⟨i, hi, -⟩
  exact Nat.not_lt_zero i hi

/-- One place on, it has just happened, or it had happened and has not just been ended. -/
theorem since_succ_iff :
    Since happens ends (j + 1) ↔ happens j ∨ Since happens ends j ∧ ¬ ends j := by
  constructor
  · rintro ⟨i, hi, hhappens, hkeep⟩
    rcases Nat.lt_succ_iff_lt_or_eq.mp hi with hlt | rfl
    · exact Or.inr ⟨⟨i, hlt, hhappens, fun k hik hkj => hkeep k hik (Nat.lt_succ_of_lt hkj)⟩,
        hkeep j hlt (Nat.lt_succ_self j)⟩
    · exact Or.inl hhappens
  · rintro (hhappens | ⟨⟨i, hi, hhappens, hkeep⟩, hend⟩)
    · exact ⟨j, Nat.lt_succ_self j, hhappens, fun k hjk hkj =>
        absurd hjk (Nat.not_lt_of_le (Nat.le_of_lt_succ hkj))⟩
    · refine ⟨i, Nat.lt_succ_of_lt hi, hhappens, fun k hik hkj => ?_⟩
      rcases Nat.lt_succ_iff_lt_or_eq.mp hkj with hlt | rfl
      · exact hkeep k hik hlt
      · exact hend

end LabelPress.Scan
