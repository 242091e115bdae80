import LabelPress.Proofs.Entries
import LabelPress.Proofs.Stream.Places

/-!
# Entries written at places

Where what is written depends on a place, each key has the value that was written since its last
other writing, and the keys stand in the order of the places at which they were first written.
-/

namespace LabelPress.Entries

open Scan

variable {κ α : Type}

/-! ## Order -/

/-- A key stands at a place and at none before it. -/
def FirstAt (key? : Nat → Option κ) (key : κ) (j : Nat) : Prop :=
  key? j = some key ∧ ∀ i < j, key? i ≠ some key

variable [DecidableEq κ]

/-- Keys without their repetitions stand in the order of their first places. -/
theorem pairwise_eraseDups_filterMap_range (key? : Nat → Option κ) (size : Nat) :
    ((List.range size).filterMap key?).eraseDups.Pairwise fun key later =>
      ∀ i j, FirstAt key? key i → FirstAt key? later j → i < j := by
  induction size with
  | zero => exact List.Pairwise.nil
  | succ size ih =>
      rw [List.range_succ, List.filterMap_append]
      cases hnew : key? size with
      | none => simpa [hnew] using ih
      | some new =>
          have hsingle : [size].filterMap key? = [new] := by simp [hnew]
          rw [hsingle, eraseDups_concat]
          split
          · exact ih
          · next habsent =>
            refine List.pairwise_append.mpr ⟨ih, List.pairwise_singleton _ _, ?_⟩
            intro key hkey later hlater i j hi hj
            rw [List.mem_singleton] at hlater
            subst hlater
            -- the key has come before the last place, the new one comes there at the earliest
            obtain ⟨k, hk, hkey⟩ := mem_filterMap_range_iff.mp (List.mem_eraseDups.mp hkey)
            have hik : i ≤ k := Nat.le_of_not_lt fun hlt => hi.2 k hlt hkey
            have hsj : size ≤ j := Nat.le_of_not_lt fun hlt =>
              habsent (mem_filterMap_range_iff.mpr ⟨j, hlt, hj.1⟩)
            omega

/-! ## Values -/

/-- A key has the value that was written to it last. -/
theorem get?_putAll_eq_some_iff_since {write : Nat → Option (κ × α)} {key : κ} {value : α}
    {size : Nat} :
    get? key (putAll [] ((List.range size).filterMap write)) = some value ↔
      Since (fun j => write j = some (key, value)) (fun k => (write k).map Prod.fst = some key)
        size := by
  induction size with
  | zero => exact ⟨nofun, fun h => absurd h not_since_zero⟩
  | succ size ih =>
      rw [since_succ_iff, ← ih, List.range_succ, List.filterMap_append, putAll_append]
      cases hw : write size with
      | none => simp [hw, putAll]
      | some e =>
          obtain ⟨k, v⟩ := e
          by_cases hk : k = key <;> simp [hw, putAll, hk]

end LabelPress.Entries
