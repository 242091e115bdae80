import LabelPress.Drawing.State

/-!
# What becomes of reversals

A scan carries one flag. A reversal raises it, a command that takes it or drops it lowers it, and so
the commands that take a raised flag are counted by the reversals that reach one of them.
-/

namespace LabelPress.Scan

variable (takes : List Command → Command → Bool) (drops : Command → Bool)

/-- The reversals of commands, each with the commands up to it, latest first, and those after it. -/
def reversalsFrom (before : List Command) : List Command → List (List Command × List Command)
  | [] => []
  | c :: after =>
      if c = .fieldReverse then (c :: before, after) :: reversalsFrom (c :: before) after
      else reversalsFrom (c :: before) after

/-- The reversals of a command stream. -/
def reversals (cs : List Command) : List (List Command × List Command) := reversalsFrom [] cs

/-- Whether a raised flag comes to a command that takes it, with no reversal on the way. -/
def reaches (before : List Command) : List Command → Bool
  | [] => false
  | c :: after =>
      takes before c || (c ≠ .fieldReverse && !drops c && reaches (c :: before) after)

/-- The flag after a command. -/
def flagAfter (before : List Command) (flag : Bool) (c : Command) : Bool :=
  c = .fieldReverse || (flag && !takes before c && !drops c)

/-- How many commands take a raised flag. -/
def taken (before : List Command) (flag : Bool) : List Command → Nat
  | [] => 0
  | c :: after =>
      (flag && takes before c).toNat + taken (c :: before) (flagAfter takes drops before flag c) after

theorem length_reversalsFrom (before cs : List Command) :
    (reversalsFrom before cs).length = cs.count .fieldReverse := by
  induction cs generalizing before with
  | nil => rfl
  | cons c after ih =>
      by_cases hc : c = .fieldReverse
      · subst hc
        rw [reversalsFrom, if_pos rfl, List.length_cons, ih, List.count_cons_self]
      · rw [reversalsFrom, if_neg hc, ih, List.count_cons_of_ne hc]

/-- There is one entry for each reversal. -/
theorem length_reversals (cs : List Command) :
    (reversals cs).length = cs.count .fieldReverse :=
  length_reversalsFrom [] cs

variable {takes drops}

/-- The flag is taken once for each reversal that comes to a command that takes it, and once more if
it was raised before and comes to one. -/
theorem taken_eq (hr : ∀ before, takes before .fieldReverse = false) (before : List Command)
    (flag : Bool) (cs : List Command) :
    taken takes drops before flag cs =
      (flag && reaches takes drops before cs).toNat +
        (reversalsFrom before cs).countP fun r => reaches takes drops r.1 r.2 := by
  induction cs generalizing before flag with
  | nil => simp [taken, reaches, reversalsFrom]
  | cons c after ih =>
      rw [taken, ih]
      by_cases hc : c = .fieldReverse
      · -- the flag that was raised before ends here, and the reversal's own begins
        subst hc
        cases hnext : reaches takes drops (.fieldReverse :: before) after <;>
          simp [flagAfter, reaches, reversalsFrom, hr, hnext, Nat.add_comm]
      · have hflag : flagAfter takes drops before flag c =
            (flag && !takes before c && !drops c) := by
          simp [flagAfter, hc]
        have hreaches : reaches takes drops before (c :: after) =
            (takes before c || (!drops c && reaches takes drops (c :: before) after)) := by
          simp [reaches, hc]
        rw [reversalsFrom, if_neg hc, hflag, hreaches, ← Nat.add_assoc]
        congr 1
        cases flag <;> cases takes before c <;> simp

/-- Nothing takes the flag where no command takes it. -/
theorem taken_eq_zero {P : List Command → Prop} (hP : ∀ before c, P before → P (c :: before))
    (htakes : ∀ before c, P before → takes before c = false) {before : List Command}
    (h : P before) (flag : Bool) (cs : List Command) :
    taken takes drops before flag cs = 0 := by
  induction cs generalizing before flag with
  | nil => rfl
  | cons c after ih =>
      rw [taken, htakes before c h, Bool.and_false, Bool.toNat_false, Nat.zero_add]
      exact ih (hP before c h) _

/-- What two tests pass adds up to everything, with what passes both counted twice and what passes
neither left out. -/
theorem countP_add_countP {α : Type} (p q : α → Bool) (xs : List α) :
    xs.countP p + xs.countP q + xs.countP (fun a => !p a && !q a) =
      xs.length + xs.countP fun a => p a && q a := by
  induction xs with
  | nil => rfl
  | cons a rest ih =>
      simp only [List.countP_cons, List.length_cons]
      cases p a <;> cases q a <;> simp <;> omega

end LabelPress.Scan
