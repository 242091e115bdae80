import LabelPress.Proofs.Command.Markup
import LabelPress.Proofs.Field.Declarations

/-!
# Markup in parts

A caret ends the piece before it, so what stands on its two sides is read apart, and of two faults
the one of the first side is met. Pieces without a character are no bodies, so a run of carets cuts
as one caret does. The template of a whole ends in its first part if that recalls a format.
-/

namespace LabelPress.Command

/-! ## Runs of carets -/

theorem bodies_carets_append (extra : Nat) (m : List Char) :
    bodies (List.replicate extra caret ++ m) = bodies m := by
  induction extra with
  | zero => rfl
  | succ extra ih => rw [List.replicate_succ, List.cons_append, bodies_caret_cons, ih]

theorem bodies_append_carets (a b : List Char) (extra : Nat) :
    bodies (a ++ List.replicate (extra + 1) caret ++ b) = bodies a ++ bodies b := by
  rw [List.append_assoc, List.replicate_succ, List.cons_append, bodies_append,
    bodies_carets_append]

/-- A text in pieces: a first one, and each other one after a run of carets, which has one caret
more than its number says. -/
def withCarets (lead : List Char) (pieces : List (Nat × List Char)) : List Char :=
  lead ++ pieces.flatMap fun p => List.replicate (p.1 + 1) caret ++ p.2

/-- The lengths of the runs between pieces have no part in the bodies. -/
theorem bodies_withCarets (lead : List Char) (pieces : List (Nat × List Char)) :
    bodies (withCarets lead pieces) = bodies lead ++ pieces.flatMap fun p => bodies p.2 := by
  induction pieces generalizing lead with
  | nil => simp [withCarets]
  | cons p rest ih =>
      have hgrown : withCarets lead (p :: rest) =
          withCarets (lead ++ List.replicate (p.1 + 1) caret ++ p.2) rest := by
        simp [withCarets]
      rw [hgrown, ih, bodies_append_carets, List.flatMap_cons, List.append_assoc]

/-! ## Two sides of a caret -/

theorem toList_append_caret (a b : String) :
    (a ++ "^" ++ b).toList = a.toList ++ caret :: b.toList := by
  simp [caret]

/-- The sides of a caret are read one after the other. -/
theorem ofMarkup_sides (a b : String) : ofMarkup (a ++ "^" ++ b) =
    (ofMarkup a).bind fun cs => (ofMarkup b).map fun ds => cs ++ ds := by
  simp only [ofMarkup]
  rw [toList_append_caret, bodies_append, List.mapM_append]
  rfl

/-- The template of two streams is that of the first if it recalls a format. -/
theorem template_append_eq (cs ds : List Command) :
    template (cs ++ ds) = if cs.any isRecall then template cs else cs ++ template ds := by
  by_cases h : ∃ c ∈ cs, c.isRecall = true
  · have hshort : (template cs).length ≠ cs.length := by
      intro hlength
      have hall := List.takeWhile_eq_self_iff.mp
        ((List.takeWhile_prefix _).eq_of_length hlength)
      obtain ⟨c, hc, hrecall⟩ := h
      simpa [hrecall] using hall c hc
    rw [template_append, if_neg hshort, if_pos (List.any_eq_true.mpr h)]
  · have hnone : ∀ c ∈ cs, c.isRecall = false := fun c hc =>
      Bool.eq_false_iff.mpr fun hrecall => h ⟨c, hc, hrecall⟩
    rw [template_append, template_eq_self hnone, if_pos rfl,
      if_neg (mt List.any_eq_true.mp h)]

/-- A markup is read in parts. The sides of a caret are read apart: if both are, the commands of the
whole are theirs in a row, and else the fault is that of the first side that has one. More carets
beside those between pieces change nothing. The template of the whole is that of the first side if
it recalls a format, and else all of the first side with the template of the second. -/
theorem ofMarkup_append_caret (a b : String) :
    ofMarkup (a ++ "^" ++ b) =
        ((ofMarkup a).bind fun cs => (ofMarkup b).map fun ds => cs ++ ds) ∧
      (∀ lead pieces, ofMarkup (String.ofList (withCarets lead pieces)) =
        ofMarkup (String.ofList (withCarets lead (pieces.map fun p => (0, p.2))))) ∧
      (ofMarkup (a ++ "^" ++ b)).map template =
        (ofMarkup a).bind fun cs => (ofMarkup b).map fun ds =>
          if cs.any isRecall then template cs else cs ++ template ds := by
  refine ⟨ofMarkup_sides a b, fun lead pieces => ?_, ?_⟩
  · simp only [ofMarkup, String.toList_ofList, bodies_withCarets, List.flatMap_map]
  · rw [ofMarkup_sides]
    cases ofMarkup a with
    | error fault => rfl
    | ok cs =>
        cases ofMarkup b with
        | error fault => rfl
        | ok ds => exact congrArg Except.ok (template_append_eq cs ds)

end LabelPress.Command
