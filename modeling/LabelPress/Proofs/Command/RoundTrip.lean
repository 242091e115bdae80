import LabelPress.Command.Spelling
import LabelPress.Proofs.Command.Grammar
import LabelPress.Proofs.Command.Markup

/-!
# Spelling and reading

Reading the spelling of a command stream gives the stream back, provided that its commands can stand
in a markup at all: numbers are not negative and within the limit of digits, texts are trimmed,
flags are words, and what is not recognized has none of the documented forms. Nothing else is ever
read.
-/

namespace LabelPress.Command

open LabelPress.Text LabelPress.Number

/-- A trimmed text without a caret. -/
def IsText (text : String) : Prop := Trimmed text.toList text.toList ∧ caret ∉ text.toList

/-- Whether a command can stand in a markup. -/
def Spellable : Command → Prop
  | fieldFont height width => IsNumber height ∧ IsNumber width
  | fieldOrigin x y => IsNumber x ∧ IsNumber y
  | fieldNumber n => IsNumber n
  | fieldData text => IsText text
  | fieldReverse => True
  | fieldSeparator => True
  | graphicBox b => IsNumber b.width ∧ IsNumber b.height ∧ IsNumber b.thickness
  | moduleWidth width => IsNumber width
  | code128 height flag =>
    IsNumber height ∧ flag ≠ "" ∧ ∀ c ∈ flag.toList, isWordChar c = true
  | recallFormat name => IsText name
  | unrecognized body => IsBody body.toList ∧ ∀ s, ¬ HasShape body.toList s

/-! ## Deciding -/

instance (n : Int) : Decidable (IsNumber n) := inferInstanceAs (Decidable (_ ∧ _))

instance (text : String) : Decidable (IsText text) :=
  decidable_of_iff (trim text.toList = text.toList ∧ caret ∉ text.toList)
    (and_congr_left fun _ => trim_eq_iff)

instance (body : List Char) : Decidable (∀ s, ¬ HasShape body s) :=
  decidable_of_iff (Shape.of body = .unrecognized) of_eq_unrecognized_iff

instance : DecidablePred Spellable
  | fieldFont .. | fieldOrigin .. | unrecognized _ => inferInstanceAs (Decidable (_ ∧ _))
  | code128 height flag =>
    decidable_of_iff (IsNumber height ∧ flag ≠ "" ∧ flag.toList.all isWordChar = true)
      (and_congr_right fun _ => and_congr_right fun _ => List.all_eq_true)
  | fieldData _ | recallFormat _ => inferInstanceAs (Decidable (IsText _))
  | fieldNumber _ | moduleWidth _ => inferInstanceAs (Decidable (IsNumber _))
  | fieldReverse | fieldSeparator => inferInstanceAs (Decidable True)
  | graphicBox _ => inferInstanceAs (Decidable (_ ∧ _ ∧ _))

/-! ## Numbers -/

section Numbers

variable {n : Int} {rest : List Char}

theorem numeral_digitsOf (n : Int) (h : ∀ c ∈ rest.head?, isDigit c = false) :
    Numeral (digitsOf n ++ rest) (digitsOf n) rest :=
  ⟨⟨rfl, fun _ hc => text_isDigit_of_mem_digitsOf hc, h⟩, digitsOf_ne_nil n⟩

theorem firstNumeral_digitsOf (n : Int) (h : ∀ c ∈ rest.head?, isDigit c = false) :
    FirstNumeral (digitsOf n ++ rest) (digitsOf n) rest :=
  ⟨[], _, blanks_nil, rfl, numeral_digitsOf n h⟩

theorem nextNumeral_digitsOf (n : Int) (h : ∀ c ∈ rest.head?, isDigit c = false) :
    NextNumeral (',' :: (digitsOf n ++ rest)) (digitsOf n) rest :=
  ⟨[], _, blanks_nil, rfl, firstNumeral_digitsOf n h⟩

theorem head_isDigit_nil : ∀ c ∈ ([] : List Char).head?, isDigit c = false := nofun

theorem head_isDigit_comma : ∀ c ∈ (',' :: rest).head?, isDigit c = false := by
  intro c hc
  obtain rfl : ',' = c := Option.some.inj hc
  decide

theorem caret_not_mem_digitsOf (n : Int) : caret ∉ digitsOf n := by
  intro h
  have hdigit := isDigit_of_mem_digitsOf h
  exact absurd hdigit (by decide)

end Numbers

/-! ## Bodies -/

theorem numerals_eq {ns : List Int} (h : ∀ n ∈ ns, IsNumber n) :
    numerals ns = [','].intercalate (ns.map digitsOf) := by
  rw [numerals]
  congr 1
  exact List.map_congr_left fun n hn => toList_integerText (h n hn).1

/-- Nothing but digits and commas spells numbers. -/
theorem caret_not_mem_numerals {ns : List Int} (h : ∀ n ∈ ns, IsNumber n) :
    caret ∉ numerals ns := by
  rw [numerals_eq h]
  clear h
  induction ns with
  | nil => exact List.not_mem_nil
  | cons n rest ih =>
      cases rest with
      | nil => simpa using caret_not_mem_digitsOf n
      | cons m rest =>
          rw [List.map_cons, List.map_cons, List.intercalate_cons_cons, ← List.map_cons]
          simp only [List.mem_append, not_or]
          exact ⟨⟨caret_not_mem_digitsOf n, by decide⟩, ih⟩

/-- What follows the keyword and the comma is a numeral after a comma. -/
theorem hasShape_fieldFont {height width : Int} (hh : IsNumber height) (hw : IsNumber width) :
    HasShape (body (.fieldFont height width)) (.fieldFont (digitsOf height) (digitsOf width)) := by
  have hname : FontName '0' := Or.inl (by decide)
  have ho : Orientation ['N'] := Or.inr ⟨'N', by decide, rfl⟩
  have hshape := HasShape.fieldFont hname ho (nextNumeral_digitsOf height head_isDigit_comma)
    (nextNumeral_digitsOf width head_isDigit_nil)
  change HasShape ("A0N,".toList ++ numerals [height, width]) _
  rw [numerals_eq (by simp [hh, hw])]
  simpa [List.intercalate] using hshape

theorem hasShape_fieldOrigin {x y : Int} (hx : IsNumber x) (hy : IsNumber y) :
    HasShape (body (.fieldOrigin x y)) (.fieldOrigin (digitsOf x) (digitsOf y)) := by
  have hshape := HasShape.fieldOrigin (firstNumeral_digitsOf x head_isDigit_comma)
    (nextNumeral_digitsOf y head_isDigit_nil)
  change HasShape ("FO".toList ++ numerals [x, y]) _
  simpa [numerals_eq, hx, hy, List.intercalate] using hshape

theorem hasShape_fieldNumber {n : Int} (hn : IsNumber n) :
    HasShape (body (.fieldNumber n)) (.fieldNumber (digitsOf n)) := by
  have hshape := HasShape.fieldNumber (numeral_digitsOf n head_isDigit_nil)
  change HasShape ("FN".toList ++ numerals [n]) _
  simpa [numerals_eq, hn] using hshape

theorem hasShape_graphicBox {b : Box} (hw : IsNumber b.width) (hh : IsNumber b.height)
    (ht : IsNumber b.thickness) : HasShape (body (.graphicBox b))
      (.graphicBox (digitsOf b.width) (digitsOf b.height) (digitsOf b.thickness)) := by
  have hshape := HasShape.graphicBox (firstNumeral_digitsOf b.width head_isDigit_comma)
    (nextNumeral_digitsOf b.height head_isDigit_comma)
    (nextNumeral_digitsOf b.thickness head_isDigit_nil)
  change HasShape ("GB".toList ++ numerals [b.width, b.height, b.thickness]) _
  simpa [numerals_eq, hw, hh, ht, List.intercalate] using hshape

theorem hasShape_moduleWidth {width : Int} (hw : IsNumber width) :
    HasShape (body (.moduleWidth width)) (.moduleWidth (digitsOf width)) := by
  have hshape := HasShape.moduleWidth (firstNumeral_digitsOf width head_isDigit_nil)
  change HasShape ("BY".toList ++ numerals [width]) _
  simpa [numerals_eq, hw] using hshape

/-- A word after a comma is the flag that is found there. -/
theorem flagWord_comma {word : List Char} (h : ∀ c ∈ word, isWordChar c = true) :
    FlagWord (',' :: word) word := by
  have hstart : ∀ c ∈ word.head?, isBlank c = false := fun c hc =>
    isBlank_of_isWordChar (h c (List.mem_of_mem_head? hc))
  have hcomma : ∀ c ∈ (',' :: word).head?, isBlank c = false := by
    intro c hc
    obtain rfl : ',' = c := Option.some.inj hc
    exact isBlank_comma
  exact ⟨[], ',' :: word, word, [], word, [], ⟨rfl, blanks_nil, hcomma⟩, Or.inl rfl,
    ⟨rfl, blanks_nil, hstart⟩, ⟨(List.append_nil word).symm, h, nofun⟩⟩

theorem hasShape_code128 {height : Int} {flag : String} (hh : IsNumber height) (hne : flag ≠ "")
    (hflag : ∀ c ∈ flag.toList, isWordChar c = true) :
    HasShape (body (.code128 height flag)) (.code128 (digitsOf height) flag.toList) := by
  have ho : Orientation ['N'] := Or.inr ⟨'N', by decide, rfl⟩
  have hshape := HasShape.code128 ho (nextNumeral_digitsOf height head_isDigit_comma)
    (flagWord_comma hflag)
  change HasShape ("BCN,".toList ++ numerals [height] ++ ',' :: flag.toList) _
  simpa [numerals_eq, hh, hne] using hshape

/-- The body of a command that can stand in a markup is read as that command. -/
theorem ofBody_body {c : Command} (h : c.Spellable) : ofBody c.body = .ok c := by
  cases c with
  | fieldFont height width =>
      obtain ⟨hh, hw⟩ := h
      rw [ofBody_eq_ok (hasShape_fieldFont hh hw)
        (by simp [Shape.numerals, hh.length_digitsOf_le, hw.length_digitsOf_le]), Shape.command,
        decimalValue_digitsOf hh.1, decimalValue_digitsOf hw.1]
  | fieldOrigin x y =>
      obtain ⟨hx, hy⟩ := h
      rw [ofBody_eq_ok (hasShape_fieldOrigin hx hy)
        (by simp [Shape.numerals, hx.length_digitsOf_le, hy.length_digitsOf_le]), Shape.command,
        decimalValue_digitsOf hx.1, decimalValue_digitsOf hy.1]
  | fieldNumber n =>
      rw [ofBody_eq_ok (hasShape_fieldNumber h) (by simp [Shape.numerals, h.length_digitsOf_le]),
        Shape.command, decimalValue_digitsOf h.1]
  | fieldData text =>
      have hshape : HasShape (body (.fieldData text)) (.fieldData text.toList) := .fieldData h.1
      rw [ofBody_eq_ok hshape (by simp [Shape.numerals]), Shape.command, String.ofList_toList]
  | fieldReverse => exact ofBody_eq_ok (.fieldReverse blanks_nil) (by simp [Shape.numerals])
  | fieldSeparator => exact ofBody_eq_ok (.fieldSeparator blanks_nil) (by simp [Shape.numerals])
  | graphicBox b =>
      obtain ⟨hw, hh, ht⟩ := h
      rw [ofBody_eq_ok (hasShape_graphicBox hw hh ht) (by
          simp [Shape.numerals, hw.length_digitsOf_le, hh.length_digitsOf_le,
            ht.length_digitsOf_le]), Shape.command,
        decimalValue_digitsOf hw.1, decimalValue_digitsOf hh.1, decimalValue_digitsOf ht.1]
  | moduleWidth width =>
      rw [ofBody_eq_ok (hasShape_moduleWidth h) (by simp [Shape.numerals, h.length_digitsOf_le]),
        Shape.command, decimalValue_digitsOf h.1]
  | code128 height flag =>
      obtain ⟨hh, hne, hflag⟩ := h
      rw [ofBody_eq_ok (hasShape_code128 hh hne hflag)
        (by simp [Shape.numerals, hh.length_digitsOf_le]), Shape.command,
        decimalValue_digitsOf hh.1, String.ofList_toList]
  | recallFormat name =>
      have hshape : HasShape (body (.recallFormat name)) (.recallFormat name.toList) :=
        .recallFormat h.1
      rw [ofBody_eq_ok hshape (by simp [Shape.numerals]), Shape.command, String.ofList_toList]
  | unrecognized raw =>
      rw [body, ofBody_eq_unrecognized h.2, String.ofList_toList]

theorem ne_caret_of_isWordChar {c : Char} (h : isWordChar c = true) : c ≠ caret := by
  rintro rfl
  exact absurd h (by decide +kernel)

/-- The body of a command that can stand in a markup does not end or split where it stands. -/
theorem isBody_body {c : Command} (h : c.Spellable) : IsBody c.body := by
  have hcaret : ∀ d ∈ ['A', '0', 'N', ',', 'F', 'O', 'D', 'R', 'S', 'G', 'B', 'Y', 'C', 'X'],
      caret ≠ d := by simp [caret]
  cases c with
  | fieldFont height width =>
      have hnumerals : caret ∉ numerals [height, width] :=
        caret_not_mem_numerals (by simpa [Spellable] using h)
      simp [IsBody, body, hcaret, hnumerals]
  | fieldOrigin x y =>
      have hnumerals : caret ∉ numerals [x, y] :=
        caret_not_mem_numerals (by simpa [Spellable] using h)
      simp [IsBody, body, hcaret, hnumerals]
  | fieldNumber n =>
      have hnumerals : caret ∉ numerals [n] := caret_not_mem_numerals (by simpa [Spellable] using h)
      simp [IsBody, body, hcaret, hnumerals]
  | fieldData text => simp [IsBody, body, h.2, hcaret]
  | fieldReverse => simp [IsBody, body, hcaret]
  | fieldSeparator => simp [IsBody, body, hcaret]
  | graphicBox b =>
      have hnumerals : caret ∉ numerals [b.width, b.height, b.thickness] :=
        caret_not_mem_numerals (by simpa [Spellable] using h)
      simp [IsBody, body, hcaret, hnumerals]
  | moduleWidth width =>
      have hnumerals : caret ∉ numerals [width] :=
        caret_not_mem_numerals (by simpa [Spellable] using h)
      simp [IsBody, body, hcaret, hnumerals]
  | code128 height flag =>
      have hnumerals : caret ∉ numerals [height] := caret_not_mem_numerals (by simpa using h.1)
      have hflag : caret ∉ flag.toList := fun hc => ne_caret_of_isWordChar (h.2.2 _ hc) rfl
      simp [IsBody, body, hcaret, hnumerals, hflag]
  | recallFormat name => simp [IsBody, body, h.2, hcaret]
  | unrecognized raw => exact h.1

/-! ## What can be read -/

/-- The trimmed form of a text without a caret. -/
theorem isText_of_trimmed {cs text : List Char} (h : Trimmed cs text) (hcs : caret ∉ cs) :
    IsText (String.ofList text) := by
  obtain ⟨s, t, -, -, rfl⟩ := h.surrounded
  rw [IsText, String.toList_ofList]
  refine ⟨⟨⟨[], [], blanks_nil, blanks_nil, by simp⟩, h.head, h.last⟩, ?_⟩
  intro hmem
  exact hcs (List.mem_append_left t (List.mem_append_right s hmem))

/-- A flag that is read is a word, also where none was written. -/
theorem isWord_flag {cs word : List Char} (h : FlagWord cs word) :
    (if word = [] then ['Y'] else word) ≠ [] ∧
      ∀ c ∈ (if word = [] then ['Y'] else word), isWordChar c = true := by
  obtain ⟨_, _, _, _, _, _, -, -, -, hword⟩ := h
  split
  · exact ⟨nofun, List.forall_mem_singleton.mpr (by decide +kernel)⟩
  · next hne => exact ⟨hne, hword.all⟩

/-- The command that is read from a body can stand in a markup. -/
theorem spellable_of_ofBody {b : List Char} {c : Command} (hb : IsBody b) (h : ofBody b = .ok c) :
    c.Spellable := by
  rcases hasShape_of_ofBody h with ⟨s, hs, hshort, rfl⟩ | ⟨hnone, rfl⟩
  · have hnumber : ∀ digits ∈ s.numerals, IsNumber (decimalValue digits) :=
      fun digits hd => isNumber_decimalValue (hshort digits hd)
    cases hs with
    | fieldData htext =>
        exact isText_of_trimmed htext fun hc => hb.2 (.tail _ (.tail _ hc))
    | fieldOrigin hx hy =>
        exact ⟨hnumber _ (by simp [Shape.numerals]), hnumber _ (by simp [Shape.numerals])⟩
    | fieldNumber hn => exact hnumber _ (by simp [Shape.numerals])
    | fieldSeparator hs => trivial
    | fieldReverse hs => trivial
    | fieldFont hname ho hheight hwidth =>
        exact ⟨hnumber _ (by simp [Shape.numerals]), hnumber _ (by simp [Shape.numerals])⟩
    | graphicBox hwidth hheight hthickness =>
        exact ⟨hnumber _ (by simp [Shape.numerals]), hnumber _ (by simp [Shape.numerals]),
          hnumber _ (by simp [Shape.numerals])⟩
    | moduleWidth hwidth => exact hnumber _ (by simp [Shape.numerals])
    | code128 ho hheight hword =>
        obtain ⟨hne, hall⟩ := isWord_flag hword
        refine ⟨hnumber _ (by simp [Shape.numerals]), ?_, ?_⟩
        · simpa [Shape.command] using hne
        · simpa [Shape.command] using hall
    | recallFormat hname =>
        exact isText_of_trimmed hname fun hc => hb.2 (.tail _ (.tail _ hc))
  · rw [Spellable, String.toList_ofList]
    exact ⟨hb, hnone⟩

/-! ## Streams -/

theorem spell_eq_ofBodies (cs : List Command) : spell cs = ofBodies (cs.map body) := by
  rw [spell, ofBodies, List.flatMap_map]

/-- The spelling of a stream whose commands can stand in a markup is cut into their bodies. -/
theorem bodies_spell {cs : List Command} (h : ∀ c ∈ cs, c.Spellable) :
    bodies (spell cs) = cs.map body := by
  have hbodies : ∀ b ∈ cs.map body, IsBody b := by
    intro b hb
    obtain ⟨c, hc, rfl⟩ := List.mem_map.mp hb
    exact isBody_body (h c hc)
  simpa [spell_eq_ofBodies] using bodies_append_ofBodies [] hbodies

/-- Reading undoes spelling, and what can be read are the streams that can be spelled. -/
theorem ofMarkup_spell_and_spellable :
    (∀ cs : List Command, (∀ c ∈ cs, c.Spellable) →
      ofMarkup (String.ofList (spell cs)) = .ok cs) ∧
    ∀ (markup : String) (cs : List Command), ofMarkup markup = .ok cs → ∀ c ∈ cs, c.Spellable := by
  constructor
  · intro cs h
    rw [ofMarkup, String.toList_ofList, bodies_spell h]
    exact mapM_map_eq_ok fun c hc => ofBody_body (h c hc)
  · intro markup cs h c hc
    obtain ⟨b, hb, hread⟩ := exists_of_mem_mapM h hc
    exact spellable_of_ofBody (isBody_of_mem_bodies hb) hread

/-- Every command once, with texts that look like commands. -/
def everyCommand : List Command :=
  [fieldFont 18 0, fieldOrigin 5 7, fieldNumber 2, fieldReverse, fieldData "FO1,2", fieldSeparator,
    graphicBox ⟨40, 30, 2⟩, moduleWidth 3, code128 50 "Y_1", recallFormat "E:A.ZPL",
    unrecognized "FN x"]

/-- A markup that no spelling gives. -/
def looseMarkup : String := " ^XA\n^FO 05 ,\t7 ^BC ,50 , ^FD a  b ^^"

/-- What is read from it. -/
def looseStream : List Command :=
  [unrecognized " ", unrecognized "XA\n", fieldOrigin 5 7, code128 50 "Y", fieldData "a  b"]

theorem ofMarkup_spell_and_spellable_everyCommand :
    ofMarkup (String.ofList (spell everyCommand)) = .ok everyCommand ∧
      ofMarkup looseMarkup = .ok looseStream ∧ ∀ c ∈ looseStream, c.Spellable := by
  have hspell := ofMarkup_spell_and_spellable.1 everyCommand (by decide +kernel)
  have hread : ofMarkup looseMarkup = .ok looseStream := by decide +kernel
  exact ⟨hspell, hread, ofMarkup_spell_and_spellable.2 _ _ hread⟩

end LabelPress.Command
