import LabelPress.Fault

/-!
# Fitting numbers

An integer that is handed over must fit into a word, and what is built must fit into memory.
-/

namespace LabelPress.Number

/-- An integer that a word can hold. -/
def Word.fit (w : Word) (n : Int) : Except Fault Int :=
  if w.holds n then .ok n else .error (.beyondWord w (n < w.least))

/-- The bytes that memory is taken to have. Which fault ends a length that is no length depends on
it, and nothing else does. -/
def memory : Nat := Nat.pow 2 35

/-- Whether so many bytes fit into memory. -/
def fitsMemory (bytes : Nat) : Bool := bytes ≤ memory

end LabelPress.Number
