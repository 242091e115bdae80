import LabelPress.Command.Reader
import LabelPress.Proofs.Text.Runs

/-!
# Blanks at the end of a body

Every form of a body bears blanks at its end, each for a reason of its own: a text is trimmed, what
follows a last numeral is not looked at, a separator allows blanks, and a word ends before them. A
body that has none of the forms gets none by them.

## Implementation notes

What is read from the start of a body is a partial function to a part and a rest. The blanks at the
end of the body are then blanks at the end of the rest, and this is closed under reading one part
after another.
-/

namespace LabelPress.Command

open LabelPress.Text

/-- Blanks at the end of a text are left in the rest of it. -/
def LeavesBlanks (read : List Char → Option (List Char × List Char)) : Prop :=
  ∀ cs {w}, Blanks w → read (cs ++ w) = (read cs).map fun part => (part.1, part.2 ++ w)

section Parts

variable {w : List Char}

/-- A run of a class without blanks does not go on in the blanks. -/
theorem takeWhile_append_blanks {p : Char → Bool} (hp : ∀ {c}, isBlank c = true → p c = false)
    (cs : List Char) (hw : Blanks w) :
    (cs ++ w).takeWhile p = cs.takeWhile p ∧ (cs ++ w).dropWhile p = cs.dropWhile p ++ w := by
  apply run_iff.mp
  refine ⟨?_, fun c hc => List.mem_takeWhile_imp hc, ?_⟩
  · rw [← List.append_assoc, List.takeWhile_append_dropWhile]
  · intro c hc
    cases hrest : cs.dropWhile p with
    | nil =>
        rw [hrest] at hc
        exact hp (hw c (List.mem_of_mem_head? hc))
    | cons d rest =>
        apply @head_dropWhile p cs c
        rw [hrest] at hc ⊢
        exact hc

theorem leavesBlanks_numeral? : LeavesBlanks Shape.numeral? := by
  intro cs w hw
  obtain ⟨htake, hdrop⟩ := takeWhile_append_blanks isDigit_of_isBlank cs hw
  rw [Shape.numeral?, Shape.numeral?, htake, hdrop]
  cases cs.takeWhile isDigit <;> rfl

theorem numeral?_nil : Shape.numeral? [] = none := rfl

theorem leavesBlanks_firstNumeral? : LeavesBlanks Shape.firstNumeral? := by
  intro cs w hw
  rw [Shape.firstNumeral?, Shape.firstNumeral?, dropWhile_append_blanks cs hw]
  split
  · next hnil => rw [hnil, numeral?_nil, Option.map_none]
  · exact leavesBlanks_numeral? _ hw

/-- A keyword does not go on in the blanks. -/
theorem isPrefixOf?_append_blanks {keyword : List Char} (hk : keyword.any isBlank = false)
    (cs : List Char) (hw : Blanks w) :
    keyword.isPrefixOf? (cs ++ w) = (keyword.isPrefixOf? cs).map (· ++ w) := by
  induction keyword generalizing cs with
  | nil => rfl
  | cons k keyword ih =>
      obtain ⟨hkb, hrest⟩ := Bool.or_eq_false_iff.mp (List.any_cons.symm.trans hk)
      cases cs with
      | cons c cs =>
          by_cases hc : k = c
          · simpa [List.isPrefixOf?, hc] using ih hrest cs
          · simp [List.isPrefixOf?, hc]
      | nil =>
          cases w with
          | nil => rfl
          | cons d w =>
              have hd : k ≠ d := by
                rintro rfl
                rw [hw k List.mem_cons_self] at hkb
                cases hkb
              simp [List.isPrefixOf?, hd]

theorem any_isBlank_comma : [','].any isBlank = false := by decide

theorem leavesBlanks_nextNumeral? : LeavesBlanks Shape.nextNumeral? := by
  intro cs w hw
  rw [Shape.nextNumeral?, Shape.nextNumeral?, dropWhile_append_blanks cs hw]
  split
  · next hnil => rw [hnil]; rfl
  · rw [isPrefixOf?_append_blanks any_isBlank_comma _ hw]
    cases [','].isPrefixOf? (cs.dropWhile isBlank) with
    | none => rfl
    | some rest => exact leavesBlanks_firstNumeral? rest hw

theorem afterOrientation_append_blanks (cs : List Char) (hw : Blanks w) :
    Shape.afterOrientation (cs ++ w) = Shape.afterOrientation cs ++ w := by
  cases cs with
  | cons c cs =>
      simp only [List.cons_append, Shape.afterOrientation]
      split <;> rfl
  | nil =>
      cases w with
      | nil => rfl
      | cons c w =>
          have hc : ¬ (c = 'N' ∨ c = 'R' ∨ c = 'I' ∨ c = 'B') := by
            have hblank := hw c List.mem_cons_self
            rintro (rfl | rfl | rfl | rfl) <;> exact absurd hblank (by decide)
          simp [Shape.afterOrientation, hc]

/-- A word after blanks does not go on in the blanks. -/
theorem takeWhile_isWordChar_append (cs : List Char) (hw : Blanks w) :
    ((cs ++ w).dropWhile isBlank).takeWhile isWordChar =
      (cs.dropWhile isBlank).takeWhile isWordChar := by
  rw [dropWhile_append_blanks cs hw]
  split
  · next hnil => rw [hnil]
  · exact (takeWhile_append_blanks isWordChar_of_isBlank _ hw).1

theorem flagAfter_append_blanks (cs : List Char) (hw : Blanks w) :
    Shape.flagAfter (cs ++ w) = Shape.flagAfter cs := by
  simp only [Shape.flagAfter]
  rw [dropWhile_append_blanks cs hw]
  split
  · next hnil => rw [hnil]
  · rw [isPrefixOf?_append_blanks any_isBlank_comma _ hw, Option.getD_map (· ++ w),
      takeWhile_isWordChar_append _ hw]

theorem all_isBlank_append (cs : List Char) (hw : Blanks w) :
    (cs ++ w).all isBlank = cs.all isBlank := by
  rw [List.all_append, List.all_eq_true.mpr hw, Bool.and_true]

end Parts

/-! ## Forms -/

/-- Blanks at the end of a text do not matter. -/
def IgnoresBlanks {α : Type} (read : List Char → Option α) : Prop :=
  ∀ cs {w}, Blanks w → read (cs ++ w) = read cs

section Forms

variable {α : Type}

/-- After a keyword. -/
theorem IgnoresBlanks.keyword {keyword : List Char} (hk : keyword.any isBlank = false)
    {next : List Char → Option α} (hnext : IgnoresBlanks next) :
    IgnoresBlanks fun cs => keyword.isPrefixOf? cs >>= next := by
  intro cs w hw
  simp only [isPrefixOf?_append_blanks hk cs hw]
  cases keyword.isPrefixOf? cs with
  | none => rfl
  | some rest => exact hnext rest hw

/-- After a part. -/
theorem LeavesBlanks.before {read : List Char → Option (List Char × List Char)}
    (hread : LeavesBlanks read) {next : List Char × List Char → Option α}
    (hnext : ∀ part, IgnoresBlanks fun rest => next (part, rest)) :
    IgnoresBlanks fun cs => read cs >>= next := by
  intro cs w hw
  simp only [hread cs hw]
  cases read cs with
  | none => rfl
  | some part => exact hnext part.1 part.2 hw

theorem ignoresBlanks_const (s : α) : IgnoresBlanks fun _ => some s := fun _ _ _ => rfl

theorem ignoresBlanks_trim (f : List Char → Shape) :
    IgnoresBlanks fun rest => some (f (trim rest)) :=
  fun cs _ hw => by simp only [trim_append_blanks cs hw]

theorem ignoresBlanks_all (s : Shape) :
    IgnoresBlanks fun rest => if rest.all isBlank then some s else none :=
  fun cs _ hw => by simp only [all_isBlank_append cs hw]

theorem IgnoresBlanks.afterOrientation {next : List Char → Option α} (hnext : IgnoresBlanks next) :
    IgnoresBlanks fun cs => next (Shape.afterOrientation cs) :=
  fun cs _ hw => by simp only [afterOrientation_append_blanks cs hw, hnext _ hw]

/-- A blank names no font. -/
theorem isFontName_of_isBlank {c : Char} (h : isBlank c = true) : Shape.isFontName c = false := by
  have hspans := inSpans_eq_false_of_apart
    (by decide : spansApart blankSpans [(0x30, 0x39), (0x41, 0x5A)] = true) h
  rw [Bool.eq_false_iff] at hspans ⊢
  intro hname
  apply hspans
  simpa [Shape.isFontName, inSpans, Char.le_def, UInt32.le_iff_toNat_le] using hname

/-- After the name of a font. -/
theorem IgnoresBlanks.fontName {next : List Char → Option α} (hnext : IgnoresBlanks next) :
    IgnoresBlanks fun
      | name :: rest => if Shape.isFontName name then next rest else none
      | _ => none := by
  intro cs w hw
  cases cs with
  | cons name rest => simp only [List.cons_append, hnext rest hw]
  | nil =>
      cases w with
      | nil => rfl
      | cons c w => simp [isFontName_of_isBlank (hw c List.mem_cons_self)]

theorem ignoresBlanks_fieldData? : IgnoresBlanks Shape.fieldData? :=
  .keyword (by decide) (ignoresBlanks_trim .fieldData)

theorem ignoresBlanks_fieldOrigin? : IgnoresBlanks Shape.fieldOrigin? :=
  .keyword (by decide) <| leavesBlanks_firstNumeral?.before fun _ =>
    leavesBlanks_nextNumeral?.before fun _ => ignoresBlanks_const _

theorem ignoresBlanks_fieldNumber? : IgnoresBlanks Shape.fieldNumber? :=
  .keyword (by decide) <| leavesBlanks_numeral?.before fun _ => ignoresBlanks_const _

theorem ignoresBlanks_fieldSeparator? : IgnoresBlanks Shape.fieldSeparator? :=
  .keyword (by decide) (ignoresBlanks_all _)

theorem ignoresBlanks_fieldReverse? : IgnoresBlanks Shape.fieldReverse? :=
  .keyword (by decide) (ignoresBlanks_all _)

theorem ignoresBlanks_fieldFont? : IgnoresBlanks Shape.fieldFont? := by
  have hwidth (height : List Char) : IgnoresBlanks fun cs => do
      let width ← Shape.nextNumeral? cs
      return Shape.fieldFont height width.1 :=
    leavesBlanks_nextNumeral?.before fun width =>
      ignoresBlanks_const (Shape.fieldFont height width)
  have hsizes : IgnoresBlanks fun cs => do
      let height ← Shape.nextNumeral? cs
      let width ← Shape.nextNumeral? height.2
      return Shape.fieldFont height.1 width.1 :=
    leavesBlanks_nextNumeral?.before hwidth
  exact .keyword (by decide) hsizes.afterOrientation.fontName

theorem ignoresBlanks_graphicBox? : IgnoresBlanks Shape.graphicBox? :=
  .keyword (by decide) <| leavesBlanks_firstNumeral?.before fun _ =>
    leavesBlanks_nextNumeral?.before fun _ => leavesBlanks_nextNumeral?.before fun _ =>
      ignoresBlanks_const _

theorem ignoresBlanks_moduleWidth? : IgnoresBlanks Shape.moduleWidth? :=
  .keyword (by decide) <| leavesBlanks_firstNumeral?.before fun _ => ignoresBlanks_const _

theorem ignoresBlanks_code128? : IgnoresBlanks Shape.code128? :=
  .keyword (by decide) <| IgnoresBlanks.afterOrientation <|
    leavesBlanks_nextNumeral?.before fun _ cs _ hw => by simp only [flagAfter_append_blanks cs hw]

theorem ignoresBlanks_recallFormat? : IgnoresBlanks Shape.recallFormat? :=
  .keyword (by decide) (ignoresBlanks_trim .recallFormat)

end Forms

/-- Blanks at the end of a body do not change its shape. -/
theorem of_append_blanks (body : List Char) {w : List Char} (hw : Blanks w) :
    Shape.of (body ++ w) = Shape.of body := by
  simp only [Shape.of, ignoresBlanks_fieldData? body hw, ignoresBlanks_fieldOrigin? body hw,
    ignoresBlanks_fieldNumber? body hw, ignoresBlanks_fieldSeparator? body hw,
    ignoresBlanks_fieldReverse? body hw, ignoresBlanks_fieldFont? body hw,
    ignoresBlanks_graphicBox? body hw, ignoresBlanks_moduleWidth? body hw,
    ignoresBlanks_code128? body hw, ignoresBlanks_recallFormat? body hw]

/-- Blanks by themselves have no shape. -/
theorem of_blanks {w : List Char} (hw : Blanks w) : Shape.of w = .unrecognized :=
  of_append_blanks [] hw

end LabelPress.Command
