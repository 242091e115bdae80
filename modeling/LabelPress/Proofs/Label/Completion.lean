import LabelPress.Proofs.Command.Grammar
import LabelPress.Proofs.Command.RoundTrip
import LabelPress.Proofs.Label.LineBreaks
import LabelPress.Proofs.Painting.Ranges

/-!
# Which labels come to a canvas

Only a number can keep a label from being painted, once its size is known and its font file exists:
a numeral of more digits than may be read, or a number that is used as a size and has no
floating-point number.
-/

namespace LabelPress

namespace Command

/-- A body without a numeral that is too long in its place. -/
def Readable (body : List Char) : Prop :=
  ∀ s, HasShape body s → ∀ digits ∈ s.numerals, digits.length ≤ Fault.digitLimit

theorem exists_ofBody_iff {body : List Char} : (∃ c, ofBody body = .ok c) ↔ Readable body := by
  constructor
  · rintro ⟨c, hc⟩ s hs
    rw [ofBody, of_eq_of_hasShape hs, ofShape_eq] at hc
    cases ho : s.overlong? with
    | none => exact Shape.overlong?_eq_none_iff.mp ho
    | some digits =>
        rw [ho] at hc
        cases hc
  · intro h
    cases hread : ofBody body with
    | ok c => exact ⟨c, rfl⟩
    | error fault =>
        obtain ⟨s, digits, hs, ho, -⟩ := exists_overlong_of_ofBody hread
        rw [Shape.overlong?_eq_none_iff.mpr (h s hs)] at ho
        cases ho

/-- A markup is read exactly if all its bodies are. -/
theorem exists_ofMarkup_iff {markup : String} :
    (∃ cs, ofMarkup markup = .ok cs) ↔ ∀ body ∈ bodies markup.toList, Readable body := by
  simp only [← exists_ofBody_iff]
  exact exists_mapM_eq_ok_iff

end Command

namespace Label

open Command

section Completion

variable {site : Font.Site} {r : LabelSource} {size : Int × Int} {selector : Text.CodePoints}
  {dir : Option String} {path : String}

/-- A label whose settings are suitable comes to what its markup comes to. -/
theorem result_build (hsize : r.size = .ok size) (hfont : r.font = .ok selector)
    (hdir : r.fontsDir = .ok dir) {fontPath : Option String}
    (hchosen : Font.resolve site dir selector = .ok fontPath) :
    (build site r).result = (ofMarkup r.markup).bind fun cs =>
      (paintReported site.files fontPath
        { width := size.1, height := size.2, fontsDir := site.fontsDirOr dir } cs).result := by
  simp [build, Reported.of, chooseFont, hsize, hfont, hdir, hchosen, Except.bind]

theorem result_paintReported_of_fault {files : Files.Tree} {fontPath : Option String} {c : Canvas}
    {cs : List Command} {fault : Fault} (h : (paint files fontPath c cs).fault = some fault) :
    (paintReported files fontPath c cs).result = .error fault := by
  simp only [paintReported, h]

/-- A canvas with a stream on it that is reported was painted to the end of the stream. -/
theorem result_paintReported_eq_ok_iff {files : Files.Tree} {fontPath : Option String}
    {c d : Canvas} {cs : List Command} : (paintReported files fontPath c cs).result = .ok d ↔
      (paint files fontPath c cs).fault = none ∧ (paint files fontPath c cs).canvas = d := by
  rw [paintReported]
  cases hfault : (paint files fontPath c cs).fault with
  | none => simp
  | some fault => simp

theorem exists_result_paintReported_iff (files : Files.Tree) (fontPath : Option String) (c : Canvas)
    (cs : List Command) : (∃ canvas, (paintReported files fontPath c cs).result = .ok canvas) ↔
      (paint files fontPath c cs).fault = none := by
  simp only [result_paintReported_eq_ok_iff, exists_and_left, exists_eq', and_true]

/-- The canvas of a label is an empty one of the label's size, with the commands of its markup
painted to their end. -/
theorem exists_paint_of_build {d : Canvas} (h : (build site r).result = .ok d) :
    ∃ cs fontPath c, Command.ofMarkup r.markup = .ok cs ∧ r.size = .ok c.size ∧
      c.primitives = [] ∧ (paint site.files fontPath c cs).fault = none ∧
      (paint site.files fontPath c cs).canvas = d := by
  simp only [build, Reported.result_andThen, Reported.of, Fault.bind_eq_ok_iff] at h
  obtain ⟨⟨width, height⟩, hsize, _, _, fontPath, _, _, _, cs, hread, hpainted⟩ := h
  exact ⟨cs, fontPath, { width, height, fontsDir := _ }, hread, hsize, rfl,
    result_paintReported_eq_ok_iff.mp hpainted⟩

/-- The document of a label is that of its canvas. -/
theorem exists_build_of_convert {document : String} (h : (convert site r).result = .ok document) :
    ∃ c, (build site r).result = .ok c ∧ Svg.render site.files c = .ok document := by
  rw [convert, Reported.result_andThen, Fault.bind_eq_ok_iff] at h
  obtain ⟨c, hc, hdocument⟩ := h
  refine ⟨c, hc, ?_⟩
  rw [← hdocument, result_document]

/-- A label with suitable settings and a font file comes to a canvas exactly if no numeral in its
markup is too long to be read and the sizes of all that it asks for can be computed. -/
theorem exists_build_iff (hsize : r.size = .ok size) (hfont : r.font = .ok selector)
    (hdir : r.fontsDir = .ok dir) (hchosen : Font.resolve site dir selector = .ok (some path))
    (hfile : site.files.isFile path = true) :
    (∃ canvas, (build site r).result = .ok canvas) ↔
      (∀ body ∈ bodies r.markup.toList, Readable body) ∧
        ∀ cs, ofMarkup r.markup = .ok cs → ∀ t ∈ plan .initial cs, t.InRange := by
  rw [result_build hsize hfont hdir hchosen, ← exists_ofMarkup_iff]
  cases hread : ofMarkup r.markup with
  | error fault => exact ⟨nofun, fun h => nomatch h.1⟩
  | ok cs =>
      have hpaint := exists_result_paintReported_iff site.files (some path)
        { width := size.1, height := size.2, fontsDir := site.fontsDirOr dir } cs
      rw [paint, fault_performAll_iff hfile] at hpaint
      simp only [Except.bind, Except.ok.injEq]
      rw [hpaint]
      exact ⟨fun h => ⟨⟨cs, rfl⟩, fun _ hds => hds ▸ h⟩, fun h => h.2 cs rfl⟩

end Completion

/-- A label of one text. -/
def oneText : LabelSource := { LabelSource.small with markup := "^FO5,7^FDx" }

theorem exists_build_iff_oneText :
    Font.resolve .small none (Text.CodePoints.ofString "f.ttf") = .ok (some "f.ttf") ∧
      Font.Site.small.files.isFile "f.ttf" = true ∧
      ∃ canvas, (build .small oneText).result = .ok canvas := by
  have hchosen : Font.resolve .small none (Text.CodePoints.ofString "f.ttf") =
      .ok (some "f.ttf") := by decide +kernel
  have hfile : Font.Site.small.files.isFile "f.ttf" = true := by decide +kernel
  have hcs : ofMarkup oneText.markup = .ok [.fieldOrigin 5 7, .fieldData "x"] := by decide +kernel
  have hplan : plan .initial [.fieldOrigin 5 7, .fieldData "x"] =
      [.text "x" ⟨5, 7, 30, 30, false⟩] := by decide +kernel
  refine ⟨hchosen, hfile, (exists_build_iff rfl rfl rfl hchosen hfile).mpr
    ⟨exists_ofMarkup_iff.mp ⟨_, hcs⟩, fun cs hread t ht => ?_⟩⟩
  obtain rfl := Except.ok.inj (hcs.symm.trans hread)
  rw [hplan, List.mem_singleton] at ht
  subst ht
  have hheight : FitsFloat 30 :=
    (by norm_num : (((30 : Int).natAbs : Nat) : ℚ) < 2 ^ 53).trans
      Number.Binary64.two_pow_lt_overflow
  exact fun _ => ⟨hheight, nofun⟩

/-- The declaration of a field by a numeral of so many digits. -/
def longDeclaration (n : Nat) : String :=
  String.ofList ('^' :: 'F' :: 'N' :: List.replicate n '1')

/-- A declaration is not read if its numeral is too long. -/
theorem ofMarkup_longDeclaration {n : Nat} (h : Fault.digitLimit < n) :
    ofMarkup (longDeclaration n) = .error (.numeralTooLong n) := by
  let digits := List.replicate n '1'
  have hdigits : ∀ c ∈ digits, c = '1' := fun c hc => List.eq_of_mem_replicate hc
  have hlength : digits.length = n := List.length_replicate
  have hshape : HasShape ('F' :: 'N' :: digits) (.fieldNumber digits) := by
    refine .fieldNumber ⟨⟨(List.append_nil digits).symm, fun c hc => ?_, fun c hc => ?_⟩, ?_⟩
    · rw [hdigits c hc]
      decide
    · cases hc
    · apply List.ne_nil_of_length_pos
      omega
  have hlong : (Shape.fieldNumber digits).overlong? = some digits := by
    simp [Shape.overlong?, Shape.numerals, hlength, h]
  have hbody : IsBody ('F' :: 'N' :: digits) := by
    refine ⟨List.cons_ne_nil _ _, ?_⟩
    rw [List.mem_cons, List.mem_cons]
    rintro (hc | hc | hc)
    · exact absurd hc (by decide)
    · exact absurd hc (by decide)
    · exact absurd (hdigits _ hc) (by decide)
  have hbodies : bodies (longDeclaration n).toList = ['F' :: 'N' :: digits] := by
    rw [longDeclaration, String.toList_ofList]
    exact (bodies_caret_cons _).trans (bodies_body hbody)
  rw [ofMarkup, hbodies, List.mapM_cons, ofBody_eq_error hshape hlong, hlength]
  rfl

/-- A text in a font of a height. -/
def textOfHeight (height : Int) : List Command := [.fieldFont height 1, .fieldData "x"]

/-- A text is not painted if its height has no floating-point number. -/
theorem fault_paint_textOfHeight {height : Int} (h : ¬ FitsFloat height) {files : Files.Tree}
    {path : String} (hfile : files.isFile path = true) (c : Canvas) :
    (paint files (some path) c (textOfHeight height)).fault = some .integerBeyondFloat := by
  have hplan : plan .initial (textOfHeight height) = [.text "x" ⟨0, 0, height, 1, false⟩] := rfl
  have herror : Number.Binary64.ofInt height = .error .integerBeyondFloat := by
    rcases Number.Binary64.ofInt_cases height with ⟨-, herror⟩ | ⟨hfits, -⟩
    · exact herror
    · exact absurd hfits h
  have hpiece : Painting.piece files (some path) (.text "x" ⟨0, 0, height, 1, false⟩) =
      .error .integerBeyondFloat := by
    rw [Painting.piece, Painting.textPiece, if_neg (by decide), require_of_isFile hfile]
    simp only [bind, Except.bind, Painting.textPrimitives, Painting.textSize, herror]
  have hperform : c.perform files (some path) (.text "x" ⟨0, 0, height, 1, false⟩) =
      { canvas := c, fault := some .integerBeyondFloat } := by
    rw [Canvas.perform, hpiece]
  have hfault := congrArg Painted.fault hperform
  rw [paint, hplan, Canvas.performAll_cons_of_fault hfault, hfault]

theorem ofMarkup_textOfHeight {height : Int} (h : Number.IsNumber height) :
    ofMarkup (String.ofList (spell (textOfHeight height))) = .ok (textOfHeight height) := by
  have hspellable : ∀ c ∈ textOfHeight height, c.Spellable := by
    rw [textOfHeight, List.forall_mem_cons, List.forall_mem_singleton]
    exact ⟨⟨h, by decide +kernel⟩, by decide⟩
  rw [ofMarkup, String.toList_ofList, bodies_spell hspellable]
  exact mapM_map_eq_ok fun c hc => ofBody_body (hspellable c hc)

/-- A numeral of one digit more than may be read ends the reading of a label on which nothing is to
be painted, and a number of 310 digits ends the painting of a text of that height. -/
theorem not_exists_build_longDeclaration :
    (build .small { LabelSource.small with markup := longDeclaration 4301 }).result =
        .error (.numeralTooLong 4301) ∧
      (build .small
        { LabelSource.small with
          markup := String.ofList (spell (textOfHeight (10 ^ 309 : Nat))) }).result =
        .error .integerBeyondFloat ∧
      ¬ ∀ markup, ∃ canvas,
        (build .small { LabelSource.small with markup := markup }).result = .ok canvas := by
  have hchosen : Font.resolve .small none (Text.CodePoints.ofString "f.ttf") =
      .ok (some "f.ttf") := by decide +kernel
  have hfile : Font.Site.small.files.isFile "f.ttf" = true := by decide +kernel
  have hlong : (build .small { LabelSource.small with markup := longDeclaration 4301 }).result =
      .error (.numeralTooLong 4301) := by
    rw [result_build rfl rfl rfl hchosen, ofMarkup_longDeclaration (by decide)]
    rfl
  have hnumber : Number.IsNumber (10 ^ 309 : Nat) :=
    ⟨Int.natCast_nonneg _, by exact_mod_cast Nat.pow_lt_pow_right (by decide) (by decide)⟩
  have hbig : ¬ FitsFloat (10 ^ 309 : Nat) := not_fitsFloat_of_le (by decide +kernel)
  refine ⟨hlong, ?_, fun h => ?_⟩
  · rw [result_build rfl rfl rfl hchosen, ofMarkup_textOfHeight hnumber]
    exact result_paintReported_of_fault (fault_paint_textOfHeight hbig hfile _)
  · obtain ⟨canvas, hcanvas⟩ := h (longDeclaration 4301)
    rw [hlong] at hcanvas
    cases hcanvas

end Label

end LabelPress
