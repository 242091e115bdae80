import LabelPress.Fault
import LabelPress.Journal

/-!
# Results with reports

What was reported on the way to a result remains when there is none.
-/

namespace LabelPress

/-- A result, or the fault in its place, with the reports up to there. -/
structure Reported (α : Type) where
  journal : List Journal.Entry
  result : Except Fault α

namespace Reported

variable {α β : Type}

/-- A result without reports. -/
def of (result : Except Fault α) : Reported α := ⟨[], result⟩

/-- What follows a result, unless there is none. -/
def andThen (r : Reported α) (next : α → Reported β) : Reported β :=
  match r.result with
  | .error fault => ⟨r.journal, .error fault⟩
  | .ok a => ⟨r.journal ++ (next a).journal, (next a).result⟩

@[simp] theorem result_andThen (r : Reported α) (next : α → Reported β) :
    (r.andThen next).result = r.result.bind fun a => (next a).result := by
  unfold andThen
  cases h : r.result <;> rfl

end Reported

end LabelPress
