/-!
# Cutting texts

Taking the characters of a class off the ends of a text. Cutting off a known beginning is the
library's, and the lemma here says that nothing is lost by it.
-/

namespace LabelPress.Text

/-- The items of a text, characters or bytes, without those of a class at its end. -/
def dropEndWhile {α : Type} (p : α → Bool) (xs : List α) : List α :=
  (xs.reverse.dropWhile p).reverse

/-- The text without the characters of a class at its two ends. -/
def trimWhile (p : Char → Bool) (cs : List Char) : List Char :=
  dropEndWhile p (cs.dropWhile p)

theorem isPrefixOf?_eq_some_iff {word cs rest : List Char} :
    word.isPrefixOf? cs = some rest ↔ cs = word ++ rest := by
  induction word generalizing cs with
  | nil => exact Option.some_inj
  | cons w ws ih =>
    cases cs with
    | nil => exact ⟨(nomatch ·), (nomatch ·)⟩
    | cons c cs =>
      show (if w == c then ws.isPrefixOf? cs else none) = some rest ↔ _
      by_cases h : w = c
      · simp [h, ih]
      · simp [h, Ne.symm h]

end LabelPress.Text
