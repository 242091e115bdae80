/-!
# Rounding a quotient

The integer nearest to a quotient of natural numbers, a tie going to the even neighbour. The two
laws say that no integer is nearer and that a tie is decided by parity.
-/

namespace LabelPress.Number

/-- The integer nearest to `num / den`; of two equally near ones the even one. -/
def roundEven (num den : Nat) : Nat :=
  let q := num / den
  let r := num % den
  if den < 2 * r ∨ (2 * r = den ∧ q % 2 = 1) then q + 1 else q

/-- The rounded quotient is at most half a unit away. -/
theorem roundEven_near (num den : Nat) (h : 0 < den) :
    2 * num ≤ (2 * roundEven num den + 1) * den ∧ 2 * roundEven num den * den ≤ 2 * num + den := by
  have hd := Nat.div_add_mod num den
  have hr := Nat.mod_lt num h
  simp only [roundEven]
  have e1 : 2 * (num / den) * den = 2 * (den * (num / den)) := by
    rw [Nat.mul_assoc, Nat.mul_comm (num / den) den]
  have e2 : 2 * (num / den + 1) * den = 2 * (den * (num / den)) + 2 * den := by
    rw [Nat.mul_add, Nat.add_mul, e1]
  split <;> rename_i hc <;> (constructor <;> (try rw [Nat.add_mul]) <;> omega)

/-- A whole quotient is its own rounding. -/
@[simp] theorem roundEven_one (n : Nat) : roundEven n 1 = n := by
  simp [roundEven, Nat.mod_one]

end LabelPress.Number
