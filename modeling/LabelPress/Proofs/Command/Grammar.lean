import LabelPress.Command.Reader
import LabelPress.Proofs.Number.Numerals
import LabelPress.Proofs.Text.Runs

/-!
# The grammar of command bodies

The documented forms of a command body are a relation between bodies and shapes that is said by
dividing the body into its parts. The reader finds a shape exactly if the body has it, and a body
has at most one shape. The command that is read has the decimal values of the numerals in the shape;
it is missing only where one of them is longer than may be read.

## Implementation notes

The reader takes as many blanks and as many digits as there are. The grammar asks for the longest
run only where what follows does not end the run by itself: after a numeral and around the flag of a
symbol.
-/

namespace LabelPress.Command

open LabelPress.Text LabelPress.Number

/-! ## Parts -/

/-- A text starts with a numeral: a run of digits that is not empty. -/
structure Numeral (cs digits rest : List Char) : Prop extends Run isDigit cs digits rest where
  ne_nil : digits ≠ []

/-- A text starts with blanks and a numeral. -/
def FirstNumeral (cs digits rest : List Char) : Prop :=
  ∃ s after, Blanks s ∧ cs = s ++ after ∧ Numeral after digits rest

/-- A text starts with blanks, a comma, blanks and a numeral. -/
def NextNumeral (cs digits rest : List Char) : Prop :=
  ∃ s after, Blanks s ∧ cs = s ++ ',' :: after ∧ FirstNumeral after digits rest

/-- A font is named by a plain digit or a plain capital. -/
def FontName (c : Char) : Prop := '0' ≤ c ∧ c ≤ '9' ∨ 'A' ≤ c ∧ c ≤ 'Z'

/-- An orientation is one of four letters, or missing. -/
def Orientation (o : List Char) : Prop := o = [] ∨ ∃ c ∈ ['N', 'R', 'I', 'B'], o = [c]

/-- What is left of a text after one comma, if it starts with one. -/
def OptionalComma (cs rest : List Char) : Prop :=
  cs = ',' :: rest ∨ cs.head? ≠ some ',' ∧ rest = cs

/-- The word after all blanks, at most one comma and all blanks at the start of a text. It may be
empty. -/
def FlagWord (cs word : List Char) : Prop :=
  ∃ s afterBlanks afterComma t afterBoth rest, Run isBlank cs s afterBlanks ∧
    OptionalComma afterBlanks afterComma ∧ Run isBlank afterComma t afterBoth ∧
      Run isWordChar afterBoth word rest

/-- The documented forms of a body, each with the shape that it is. -/
inductive HasShape : List Char → Shape → Prop
  | fieldData {rest text} (htext : Trimmed rest text) :
      HasShape ('F' :: 'D' :: rest) (.fieldData text)
  | fieldOrigin {cs x after y rest} (hx : FirstNumeral cs x after)
      (hy : NextNumeral after y rest) : HasShape ('F' :: 'O' :: cs) (.fieldOrigin x y)
  | fieldNumber {cs number rest} (hnumber : Numeral cs number rest) :
      HasShape ('F' :: 'N' :: cs) (.fieldNumber number)
  | fieldSeparator {s} (hs : Blanks s) : HasShape ('F' :: 'S' :: s) .fieldSeparator
  | fieldReverse {s} (hs : Blanks s) : HasShape ('F' :: 'R' :: s) .fieldReverse
  | fieldFont {name o cs height after width rest} (hname : FontName name)
      (ho : Orientation o) (hheight : NextNumeral cs height after)
      (hwidth : NextNumeral after width rest) :
      HasShape ('A' :: name :: (o ++ cs)) (.fieldFont height width)
  | graphicBox {cs width afterWidth height afterHeight thickness rest}
      (hwidth : FirstNumeral cs width afterWidth)
      (hheight : NextNumeral afterWidth height afterHeight)
      (hthickness : NextNumeral afterHeight thickness rest) :
      HasShape ('G' :: 'B' :: cs) (.graphicBox width height thickness)
  | moduleWidth {cs width rest} (hwidth : FirstNumeral cs width rest) :
      HasShape ('B' :: 'Y' :: cs) (.moduleWidth width)
  | code128 {o cs height after word} (ho : Orientation o) (hheight : NextNumeral cs height after)
      (hword : FlagWord after word) :
      HasShape ('B' :: 'C' :: (o ++ cs)) (.code128 height (if word = [] then ['Y'] else word))
  | recallFormat {rest name} (hname : Trimmed rest name) :
      HasShape ('X' :: 'F' :: rest) (.recallFormat name)

/-! ## Reading the parts -/

theorem numeral?_eq_some_iff {cs digits rest : List Char} :
    Shape.numeral? cs = some (digits, rest) ↔ Numeral cs digits rest := by
  have hread : Shape.numeral? cs =
      if cs.takeWhile isDigit = [] then none
      else some (cs.takeWhile isDigit, cs.dropWhile isDigit) := by
    unfold Shape.numeral?
    cases cs.takeWhile isDigit <;> rfl
  rw [hread]
  constructor
  · intro h
    split at h
    · cases h
    · next hne =>
        obtain ⟨rfl, rfl⟩ := Prod.mk.inj (Option.some.inj h)
        exact ⟨run_iff.mpr ⟨rfl, rfl⟩, hne⟩
  · rintro ⟨hrun, hne⟩
    obtain ⟨rfl, rfl⟩ := run_iff.mp hrun
    rw [if_neg hne]

/-- A numeral starts with no blank. -/
theorem Numeral.head_isBlank {cs digits rest : List Char} (h : Numeral cs digits rest) :
    ∀ c ∈ cs.head?, isBlank c = false := by
  intro c hc
  apply isBlank_of_isDigit
  apply h.all c
  obtain ⟨d, ds, hd⟩ := List.exists_cons_of_ne_nil h.ne_nil
  have hcd : d = c := by simpa [h.eq_append, hd] using hc
  simp [hd, hcd]

theorem firstNumeral?_eq_some_iff {cs digits rest : List Char} :
    Shape.firstNumeral? cs = some (digits, rest) ↔ FirstNumeral cs digits rest := by
  rw [Shape.firstNumeral?, numeral?_eq_some_iff]
  constructor
  · intro h
    exact ⟨cs.takeWhile isBlank, cs.dropWhile isBlank, fun c hc => List.mem_takeWhile_imp hc,
      List.takeWhile_append_dropWhile.symm, h⟩
  · rintro ⟨s, after, hs, rfl, h⟩
    rwa [hs.dropWhile_append h.head_isBlank]

theorem isBlank_comma : isBlank ',' = false := by decide

theorem nextNumeral?_eq_some_iff {cs digits rest : List Char} :
    Shape.nextNumeral? cs = some (digits, rest) ↔ NextNumeral cs digits rest := by
  simp only [Shape.nextNumeral?, Option.bind_eq_some_iff, isPrefixOf?_eq_some_iff,
    firstNumeral?_eq_some_iff, List.singleton_append]
  constructor
  · rintro ⟨after, hcomma, h⟩
    refine ⟨cs.takeWhile isBlank, after, fun c hc => List.mem_takeWhile_imp hc, ?_, h⟩
    rw [← hcomma, List.takeWhile_append_dropWhile]
  · rintro ⟨s, after, hs, rfl, h⟩
    refine ⟨after, hs.dropWhile_append ?_, h⟩
    intro c hc
    obtain rfl : ',' = c := Option.some.inj hc
    exact isBlank_comma

/-- Where a numeral is to come after a comma, no orientation can begin. -/
theorem NextNumeral.head_ne {cs digits rest : List Char} (h : NextNumeral cs digits rest) :
    ∀ c ∈ cs.head?, c ≠ 'N' ∧ c ≠ 'R' ∧ c ≠ 'I' ∧ c ≠ 'B' := by
  obtain ⟨s, after, hs, rfl, -⟩ := h
  intro c hc
  cases s with
  | nil =>
      obtain rfl : ',' = c := Option.some.inj hc
      decide
  | cons d s =>
      obtain rfl : d = c := Option.some.inj hc
      have hd := hs d List.mem_cons_self
      refine ⟨?_, ?_, ?_, ?_⟩ <;>
        · rintro rfl
          exact absurd hd (by decide)

theorem isFontName_iff {c : Char} : Shape.isFontName c = true ↔ FontName c := by
  simp [Shape.isFontName, FontName]

theorem afterOrientation_append {o cs digits rest : List Char} (ho : Orientation o)
    (h : NextNumeral cs digits rest) : Shape.afterOrientation (o ++ cs) = cs := by
  rcases ho with rfl | ⟨c, hc, rfl⟩
  · cases cs with
    | nil => rfl
    | cons c cs =>
        obtain ⟨hN, hR, hI, hB⟩ := h.head_ne c rfl
        simp [Shape.afterOrientation, hN, hR, hI, hB]
  · have hletter : c = 'N' ∨ c = 'R' ∨ c = 'I' ∨ c = 'B' := by simpa using hc
    simp [Shape.afterOrientation, hletter]

/-- What follows an orientation is all of the text, or all but its first letter. -/
theorem exists_orientation (cs : List Char) :
    ∃ o, Orientation o ∧ cs = o ++ Shape.afterOrientation cs := by
  cases cs with
  | nil => exact ⟨[], Or.inl rfl, rfl⟩
  | cons c cs =>
      by_cases hc : c = 'N' ∨ c = 'R' ∨ c = 'I' ∨ c = 'B'
      · refine ⟨[c], Or.inr ⟨c, by simpa using hc, rfl⟩, ?_⟩
        simp [Shape.afterOrientation, hc]
      · exact ⟨[], Or.inl rfl, by simp [Shape.afterOrientation, hc]⟩

theorem optionalComma_iff {cs rest : List Char} :
    OptionalComma cs rest ↔ ([','].isPrefixOf? cs).getD cs = rest := by
  cases cs with
  | nil =>
      constructor
      · rintro (h | ⟨-, rfl⟩)
        · cases h
        · rfl
      · rintro rfl
        exact Or.inr ⟨nofun, rfl⟩
  | cons c cs =>
      by_cases hc : c = ','
      · simp [OptionalComma, List.isPrefixOf?, hc]
      · have hcomma : ¬ (',' = c) := fun h => hc h.symm
        simp [OptionalComma, List.isPrefixOf?, hc, hcomma, @eq_comm _ rest]

theorem flagWord_iff {cs word : List Char} : FlagWord cs word ↔ Shape.flagAfter cs = word := by
  constructor
  · rintro ⟨s, afterBlanks, afterComma, t, afterBoth, rest, hs, hcomma, ht, hword⟩
    rw [Shape.flagAfter, (run_iff.mp hs).2, optionalComma_iff.mp hcomma, (run_iff.mp ht).2,
      (run_iff.mp hword).1]
  · intro h
    exact ⟨_, _, _, _, _, _, run_iff.mpr ⟨rfl, rfl⟩, optionalComma_iff.mpr rfl,
      run_iff.mpr ⟨rfl, rfl⟩, run_iff.mpr ⟨h, rfl⟩⟩

/-! ## Reading the shape -/

section Alternatives

variable {body : List Char} {s : Shape}

theorem hasShape_of_fieldData? (h : Shape.fieldData? body = some s) : HasShape body s := by
  simp only [Shape.fieldData?, Option.bind_eq_bind, Option.bind_eq_some_iff, Option.pure_def,
    isPrefixOf?_eq_some_iff] at h
  obtain ⟨rest, rfl, hs⟩ := h
  exact Option.some.inj hs ▸ .fieldData (trimmed_trim rest)

theorem hasShape_of_fieldOrigin? (h : Shape.fieldOrigin? body = some s) : HasShape body s := by
  simp only [Shape.fieldOrigin?, Option.bind_eq_bind, Option.bind_eq_some_iff, Option.pure_def,
    isPrefixOf?_eq_some_iff, firstNumeral?_eq_some_iff, nextNumeral?_eq_some_iff, Prod.exists] at h
  obtain ⟨cs, rfl, x, after, hx, y, rest, hy, hs⟩ := h
  exact Option.some.inj hs ▸ .fieldOrigin hx hy

theorem hasShape_of_fieldNumber? (h : Shape.fieldNumber? body = some s) : HasShape body s := by
  simp only [Shape.fieldNumber?, Option.bind_eq_bind, Option.bind_eq_some_iff, Option.pure_def,
    isPrefixOf?_eq_some_iff, numeral?_eq_some_iff, Prod.exists] at h
  obtain ⟨cs, rfl, number, rest, hnumber, hs⟩ := h
  exact Option.some.inj hs ▸ .fieldNumber hnumber

theorem hasShape_of_fieldSeparator? (h : Shape.fieldSeparator? body = some s) :
    HasShape body s := by
  simp only [Shape.fieldSeparator?, Option.bind_eq_bind, Option.bind_eq_some_iff, Option.pure_def,
    isPrefixOf?_eq_some_iff, Option.ite_none_right_eq_some, List.all_eq_true] at h
  obtain ⟨rest, rfl, hrest, hs⟩ := h
  exact Option.some.inj hs ▸ .fieldSeparator hrest

theorem hasShape_of_fieldReverse? (h : Shape.fieldReverse? body = some s) : HasShape body s := by
  simp only [Shape.fieldReverse?, Option.bind_eq_bind, Option.bind_eq_some_iff, Option.pure_def,
    isPrefixOf?_eq_some_iff, Option.ite_none_right_eq_some, List.all_eq_true] at h
  obtain ⟨rest, rfl, hrest, hs⟩ := h
  exact Option.some.inj hs ▸ .fieldReverse hrest

theorem hasShape_of_fieldFont? (h : Shape.fieldFont? body = some s) : HasShape body s := by
  simp only [Shape.fieldFont?, Option.bind_eq_bind, Option.bind_eq_some_iff,
    isPrefixOf?_eq_some_iff] at h
  obtain ⟨rest, rfl, h⟩ := h
  cases rest with
  | nil => cases h
  | cons name rest =>
      simp only [Option.ite_none_right_eq_some, Option.bind_eq_some_iff, Option.pure_def,
        nextNumeral?_eq_some_iff, Prod.exists] at h
      obtain ⟨hname, height, after, hheight, width, tail, hwidth, hs⟩ := h
      obtain ⟨o, ho, hrest⟩ := exists_orientation rest
      rw [hrest]
      exact Option.some.inj hs ▸ .fieldFont (isFontName_iff.mp hname) ho hheight hwidth

theorem hasShape_of_graphicBox? (h : Shape.graphicBox? body = some s) : HasShape body s := by
  simp only [Shape.graphicBox?, Option.bind_eq_bind, Option.bind_eq_some_iff, Option.pure_def,
    isPrefixOf?_eq_some_iff, firstNumeral?_eq_some_iff, nextNumeral?_eq_some_iff, Prod.exists] at h
  obtain ⟨cs, rfl, width, after, hwidth, height, last, hheight, thickness, rest, hthickness, hs⟩ :=
    h
  exact Option.some.inj hs ▸ .graphicBox hwidth hheight hthickness

theorem hasShape_of_moduleWidth? (h : Shape.moduleWidth? body = some s) : HasShape body s := by
  simp only [Shape.moduleWidth?, Option.bind_eq_bind, Option.bind_eq_some_iff, Option.pure_def,
    isPrefixOf?_eq_some_iff, firstNumeral?_eq_some_iff, Prod.exists] at h
  obtain ⟨cs, rfl, width, rest, hwidth, hs⟩ := h
  exact Option.some.inj hs ▸ .moduleWidth hwidth

theorem hasShape_of_code128? (h : Shape.code128? body = some s) : HasShape body s := by
  simp only [Shape.code128?, Option.bind_eq_bind, Option.bind_eq_some_iff, Option.pure_def,
    isPrefixOf?_eq_some_iff, nextNumeral?_eq_some_iff, Prod.exists, List.isEmpty_iff,
    Option.some.injEq] at h
  obtain ⟨rest, rfl, height, after, hheight, hs⟩ := h
  obtain ⟨o, ho, hrest⟩ := exists_orientation rest
  have hshape := HasShape.code128 ho hheight (flagWord_iff.mpr rfl)
  rwa [← hrest, hs] at hshape

theorem hasShape_of_recallFormat? (h : Shape.recallFormat? body = some s) : HasShape body s := by
  simp only [Shape.recallFormat?, Option.bind_eq_bind, Option.bind_eq_some_iff, Option.pure_def,
    isPrefixOf?_eq_some_iff] at h
  obtain ⟨rest, rfl, hs⟩ := h
  exact Option.some.inj hs ▸ .recallFormat (trimmed_trim rest)

/-- What holds of each of two alternatives holds of the first of them that there is. -/
theorem of_orElse {P : Shape → Prop} {x y : Option Shape} (hx : ∀ {s}, x = some s → P s)
    (hy : ∀ {s}, y = some s → P s) {s : Shape} (h : (x <|> y) = some s) : P s := by
  cases x with
  | none => exact hy h
  | some t => exact hx h

end Alternatives

/-- A shape that the reader finds is one of the body. -/
theorem hasShape_of {body : List Char} (h : Shape.of body ≠ .unrecognized) :
    HasShape body (Shape.of body) := by
  have hsome : ∀ {s}, (Shape.fieldData? body <|> Shape.fieldOrigin? body
      <|> Shape.fieldNumber? body <|> Shape.fieldSeparator? body <|> Shape.fieldReverse? body
      <|> Shape.fieldFont? body <|> Shape.graphicBox? body <|> Shape.moduleWidth? body
      <|> Shape.code128? body <|> Shape.recallFormat? body) = some s → HasShape body s :=
    of_orElse hasShape_of_fieldData? <| of_orElse hasShape_of_fieldOrigin? <|
    of_orElse hasShape_of_fieldNumber? <| of_orElse hasShape_of_fieldSeparator? <|
    of_orElse hasShape_of_fieldReverse? <| of_orElse hasShape_of_fieldFont? <|
    of_orElse hasShape_of_graphicBox? <| of_orElse hasShape_of_moduleWidth? <|
    of_orElse hasShape_of_code128? hasShape_of_recallFormat?
  rw [Shape.of] at h ⊢
  revert h hsome
  generalize (Shape.fieldData? body <|> _) = found
  intro h hsome
  cases found with
  | none => exact absurd rfl h
  | some s => exact hsome rfl

/-- The reader finds the shape of a body. The keywords of the forms differ, so no earlier form takes
a body away from a later one. -/
theorem of_eq_of_hasShape {body : List Char} {s : Shape} (h : HasShape body s) :
    Shape.of body = s := by
  simp only [Shape.of, Shape.fieldData?, Shape.fieldOrigin?, Shape.fieldNumber?,
    Shape.fieldSeparator?, Shape.fieldReverse?, Shape.fieldFont?, Shape.graphicBox?,
    Shape.moduleWidth?, Shape.code128?, Shape.recallFormat?]
  cases h with
  | fieldData htext => simp [List.isPrefixOf?, trim_eq_iff.mpr htext]
  | fieldOrigin hx hy =>
      simp [List.isPrefixOf?, firstNumeral?_eq_some_iff.mpr hx, nextNumeral?_eq_some_iff.mpr hy]
  | fieldNumber hnumber => simp [List.isPrefixOf?, numeral?_eq_some_iff.mpr hnumber]
  | @fieldSeparator s hs =>
      have hall : s.all isBlank = true := List.all_eq_true.mpr hs
      simp [List.isPrefixOf?, hall, -List.all_eq_true]
  | @fieldReverse s hs =>
      have hall : s.all isBlank = true := List.all_eq_true.mpr hs
      simp [List.isPrefixOf?, hall, -List.all_eq_true]
  | fieldFont hname ho hheight hwidth =>
      simp [List.isPrefixOf?, isFontName_iff.mpr hname, afterOrientation_append ho hheight,
        nextNumeral?_eq_some_iff.mpr hheight, nextNumeral?_eq_some_iff.mpr hwidth]
  | graphicBox hwidth hheight hthickness =>
      simp [List.isPrefixOf?, firstNumeral?_eq_some_iff.mpr hwidth,
        nextNumeral?_eq_some_iff.mpr hheight, nextNumeral?_eq_some_iff.mpr hthickness]
  | moduleWidth hwidth => simp [List.isPrefixOf?, firstNumeral?_eq_some_iff.mpr hwidth]
  | code128 ho hheight hword =>
      simp [List.isPrefixOf?, afterOrientation_append ho hheight,
        nextNumeral?_eq_some_iff.mpr hheight, flagWord_iff.mp hword]
  | recallFormat hname => simp [List.isPrefixOf?, trim_eq_iff.mpr hname]

-- An orientation may follow a font that is named like one.
example : Shape.of "ANN,18,10".toList = .fieldFont "18".toList "10".toList := by decide

theorem not_hasShape_unrecognized (body : List Char) : ¬ HasShape body .unrecognized := by
  intro h
  generalize hs : Shape.unrecognized = s at h
  cases h <;> cases hs

/-- The reader finds no shape exactly if the body has none. -/
theorem of_eq_unrecognized_iff {body : List Char} :
    Shape.of body = .unrecognized ↔ ∀ s, ¬ HasShape body s := by
  constructor
  · intro h s hs
    rw [of_eq_of_hasShape hs] at h
    exact not_hasShape_unrecognized body (h ▸ hs)
  · intro h
    by_contra hne
    exact h _ (hasShape_of hne)

/-! ## Reading the numerals -/

namespace Shape

/-- The numerals of a shape. -/
def numerals : Shape → List (List Char)
  | fieldOrigin x y => [x, y]
  | fieldNumber number => [number]
  | fieldFont height width => [height, width]
  | graphicBox width height thickness => [width, height, thickness]
  | moduleWidth width => [width]
  | code128 height _ => [height]
  | _ => []

/-- The command that a shape stands for. -/
def command (body : List Char) : Shape → Command
  | fieldData text => .fieldData (String.ofList text)
  | fieldOrigin x y => .fieldOrigin (decimalValue x) (decimalValue y)
  | fieldNumber number => .fieldNumber (decimalValue number)
  | fieldSeparator => .fieldSeparator
  | fieldReverse => .fieldReverse
  | fieldFont height width => .fieldFont (decimalValue height) (decimalValue width)
  | graphicBox width height thickness =>
    .graphicBox ⟨decimalValue width, decimalValue height, decimalValue thickness⟩
  | moduleWidth width => .moduleWidth (decimalValue width)
  | code128 height flag => .code128 (decimalValue height) (String.ofList flag)
  | recallFormat name => .recallFormat (String.ofList name)
  | unrecognized => .unrecognized (String.ofList body)

/-- The first numeral of a shape that is longer than may be read. -/
def overlong? (s : Shape) : Option (List Char) :=
  s.numerals.find? fun digits => Fault.digitLimit < digits.length

theorem overlong?_eq_none_iff {s : Shape} :
    s.overlong? = none ↔ ∀ digits ∈ s.numerals, digits.length ≤ Fault.digitLimit := by
  simp [overlong?]

end Shape

/-- A shape gives its command, unless one of its numerals is too long. -/
theorem ofShape_eq (body : List Char) (s : Shape) :
    ofShape body s =
      match s.overlong? with
      | some digits => .error (.numeralTooLong digits.length)
      | none => .ok (s.command body) := by
  have hbind (digits : List Char) (next : Int → Except Fault Command) :
      (readNumeral digits >>= next) =
        if Fault.digitLimit < digits.length then .error (.numeralTooLong digits.length)
        else next (decimalValue digits) := by
    rw [readNumeral_eq]
    split <;> rfl
  cases s with
  | fieldNumber n | moduleWidth n | code128 n flag =>
      simp only [ofShape, hbind, Shape.overlong?, Shape.numerals, List.find?_cons, List.find?_nil]
      by_cases hn : Fault.digitLimit < n.length
      · simp [hn]
      · simp [hn, Shape.command, pure, Except.pure]
  | fieldOrigin m n | fieldFont m n =>
      simp only [ofShape, hbind, Shape.overlong?, Shape.numerals, List.find?_cons, List.find?_nil]
      by_cases hm : Fault.digitLimit < m.length
      · simp [hm]
      · by_cases hn : Fault.digitLimit < n.length
        · simp [hm, hn]
        · simp [hm, hn, Shape.command, pure, Except.pure]
  | graphicBox l m n =>
      simp only [ofShape, hbind, Shape.overlong?, Shape.numerals, List.find?_cons, List.find?_nil]
      by_cases hl : Fault.digitLimit < l.length
      · simp [hl]
      · by_cases hm : Fault.digitLimit < m.length
        · simp [hl, hm]
        · by_cases hn : Fault.digitLimit < n.length
          · simp [hl, hm, hn]
          · simp [hl, hm, hn, Shape.command, pure, Except.pure]
  | _ => rfl

/-- A body is read as the command of its shape, unless a numeral of the shape is too long. -/
theorem ofBody_eq_ok {body : List Char} {s : Shape} (hs : HasShape body s)
    (hshort : ∀ digits ∈ s.numerals, digits.length ≤ Fault.digitLimit) :
    ofBody body = .ok (s.command body) := by
  rw [ofBody, of_eq_of_hasShape hs, ofShape_eq, Shape.overlong?_eq_none_iff.mpr hshort]

theorem ofBody_eq_error {body digits : List Char} {s : Shape} (hs : HasShape body s)
    (hlong : s.overlong? = some digits) : ofBody body = .error (.numeralTooLong digits.length) := by
  rw [ofBody, of_eq_of_hasShape hs, ofShape_eq, hlong]

/-- A body without a shape is an unrecognized command. -/
theorem ofBody_eq_unrecognized {body : List Char} (h : ∀ s, ¬ HasShape body s) :
    ofBody body = .ok (.unrecognized (String.ofList body)) := by
  rw [ofBody, of_eq_unrecognized_iff.mpr h]
  rfl

/-- Where a body gives no command, it has a shape with a numeral that is too long. -/
theorem exists_overlong_of_ofBody {body : List Char} {fault : Fault}
    (h : ofBody body = .error fault) : ∃ s digits, HasShape body s ∧ s.overlong? = some digits ∧
      fault = .numeralTooLong digits.length := by
  rw [ofBody, ofShape_eq] at h
  cases ho : (Shape.of body).overlong? with
  | none =>
      rw [ho] at h
      cases h
  | some digits =>
      rw [ho] at h
      have hne : Shape.of body ≠ .unrecognized := by
        intro hu
        rw [hu] at ho
        cases ho
      exact ⟨_, digits, hasShape_of hne, ho, (Except.error.inj h).symm⟩

/-- A command that is read is that of a shape of its body, or an unrecognized one. -/
theorem hasShape_of_ofBody {body : List Char} {c : Command} (h : ofBody body = .ok c) :
    (∃ s, HasShape body s ∧ (∀ digits ∈ s.numerals, digits.length ≤ Fault.digitLimit) ∧
      c = s.command body) ∨
    (∀ s, ¬ HasShape body s) ∧ c = .unrecognized (String.ofList body) := by
  by_cases hu : Shape.of body = .unrecognized
  · have hnone := of_eq_unrecognized_iff.mp hu
    rw [ofBody_eq_unrecognized hnone] at h
    exact Or.inr ⟨hnone, (Except.ok.inj h).symm⟩
  · rw [ofBody, ofShape_eq] at h
    cases ho : (Shape.of body).overlong? with
    | some digits =>
        rw [ho] at h
        cases h
    | none =>
        rw [ho] at h
        exact Or.inl ⟨_, hasShape_of hu, Shape.overlong?_eq_none_iff.mp ho,
          (Except.ok.inj h).symm⟩

/-- The forms of a body settle what is read: a body with a shape is read as the command of the shape
if all its numerals may be read, and a body without a shape is an unrecognized command. -/
theorem ofBody_eq_ok_iff (body : List Char) (c : Command) :
    ofBody body = .ok c ↔
      (∃ s, HasShape body s ∧ (∀ digits ∈ s.numerals, digits.length ≤ Fault.digitLimit) ∧
        c = s.command body) ∨
      (∀ s, ¬ HasShape body s) ∧ c = .unrecognized (String.ofList body) := by
  constructor
  · exact hasShape_of_ofBody
  · rintro (⟨s, hs, hshort, rfl⟩ | ⟨hnone, rfl⟩)
    · exact ofBody_eq_ok hs hshort
    · exact ofBody_eq_unrecognized hnone

end LabelPress.Command
