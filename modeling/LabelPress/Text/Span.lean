/-!
# Spans of code points

A class of characters is a list of closed intervals of code points.
-/

namespace LabelPress.Text

/-- A closed interval of code points, first to last. -/
abbrev Span := Nat × Nat

/-- Whether some span of the list holds the code point. -/
def inSpans (spans : List Span) (n : Nat) : Bool :=
  spans.any fun s => s.1 ≤ n && n ≤ s.2

theorem inSpans_eq_true_iff {spans : List Span} {n : Nat} :
    inSpans spans n = true ↔ ∃ s ∈ spans, s.1 ≤ n ∧ n ≤ s.2 := by
  simp [inSpans]

end LabelPress.Text
