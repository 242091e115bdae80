import LabelPress.Proofs.Command.Endings
import LabelPress.Proofs.Command.Grammar
import LabelPress.Proofs.Command.Markup
import LabelPress.Proofs.Stream.Unrecognized

/-!
# Line breaks

A label written with one command on a line, or with blanks after its commands, is the label without
them. Blanks before the first command are one command more, which is not recognized and stands at
the start of the stream; blanks after a body leave the command that it is, or the words of one that
is not recognized.
-/

namespace LabelPress

open Text

namespace Command

/-- A body with the blanks that are written after it. -/
structure MarkupLine where
  body : List Char
  ending : List Char
  isBody : IsBody body
  blanks : Blanks ending

/-- The body with its blanks. -/
def MarkupLine.written (l : MarkupLine) : List Char := l.body ++ l.ending

theorem caret_not_mem_of_blanks {w : List Char} (hw : Blanks w) : caret ∉ w := fun h =>
  absurd (hw caret h) (by decide)

theorem MarkupLine.isBody_written (l : MarkupLine) : IsBody l.written := by
  refine ⟨?_, ?_⟩
  · intro h
    exact l.isBody.1 (List.append_eq_nil_iff.mp h).1
  · rw [MarkupLine.written, List.mem_append]
    rintro (h | h)
    · exact l.isBody.2 h
    · exact caret_not_mem_of_blanks l.blanks h

/-- A markup of lines, with blanks before the first. -/
def ofLines (lead : List Char) (lines : List MarkupLine) : String :=
  String.ofList (lead ++ ofBodies (lines.map MarkupLine.written))

/-- The markup of the same bodies and nothing else. -/
def ofLineBodies (lines : List MarkupLine) : String :=
  String.ofList (ofBodies (lines.map MarkupLine.body))

/-! ## What is read -/

/-- The body counts for nothing but the words of a command that is not recognized. -/
theorem ofShape_wordless (b b' : List Char) (s : Shape) :
    (ofShape b s).map wordless = (ofShape b' s).map wordless := by
  rw [ofShape_eq, ofShape_eq]
  cases s.overlong? with
  | some digits => rfl
  | none => cases s <;> rfl

/-- The blanks after a body leave what is read from it. -/
theorem MarkupLine.ofBody_written (l : MarkupLine) :
    (ofBody l.written).map wordless = (ofBody l.body).map wordless := by
  rw [ofBody, ofBody, written, of_append_blanks l.body l.blanks]
  exact ofShape_wordless ..

/-- The lines of a markup leave what is read from their bodies. -/
theorem mapM_ofBody_written (lines : List MarkupLine) :
    ((lines.map MarkupLine.written).mapM ofBody).map (List.map wordless) =
      ((lines.map MarkupLine.body).mapM ofBody).map (List.map wordless) := by
  rw [map_mapM, map_mapM, List.mapM_map, List.mapM_map]
  congr 1
  funext l
  exact l.ofBody_written

/-- Blanks before the first command are a command that is not recognized, or nothing. -/
def leadCommands (lead : List Char) : List Command :=
  if lead = [] then [] else [unrecognized (String.ofList lead)]

theorem mapM_bodies_lead {lead : List Char} (h : Blanks lead) :
    (bodies lead).mapM ofBody = .ok (leadCommands lead) := by
  by_cases hl : lead = []
  · rw [hl]
    rfl
  · have hbody : IsBody lead := ⟨hl, caret_not_mem_of_blanks h⟩
    have hread : ofBody lead = .ok (unrecognized (String.ofList lead)) :=
      ofBody_eq_unrecognized (of_eq_unrecognized_iff.mp (of_blanks h))
    rw [bodies_body hbody, leadCommands, if_neg hl, List.mapM_cons, hread]
    rfl

theorem ofMarkup_ofLineBodies (lines : List MarkupLine) :
    ofMarkup (ofLineBodies lines) = (lines.map MarkupLine.body).mapM ofBody := by
  have hbodies : ∀ b ∈ lines.map MarkupLine.body, IsBody b := by
    intro b hb
    obtain ⟨l, -, rfl⟩ := List.mem_map.mp hb
    exact l.isBody
  have hcut : bodies (ofBodies (lines.map MarkupLine.body)) = lines.map MarkupLine.body := by
    simpa using bodies_append_ofBodies [] hbodies
  rw [ofMarkup, ofLineBodies, String.toList_ofList, hcut]

theorem ofMarkup_ofLines {lead : List Char} (h : Blanks lead) (lines : List MarkupLine) :
    ofMarkup (ofLines lead lines) =
      ((lines.map MarkupLine.written).mapM ofBody).map (leadCommands lead ++ ·) := by
  have hbodies : ∀ b ∈ lines.map MarkupLine.written, IsBody b := by
    intro b hb
    obtain ⟨l, -, rfl⟩ := List.mem_map.mp hb
    exact l.isBody_written
  rw [ofMarkup, ofLines, String.toList_ofList, bodies_append_ofBodies lead hbodies,
    List.mapM_append, mapM_bodies_lead h]
  rfl

end Command

/-- A place with one font file, in the working folder. -/
def Font.Site.small : Font.Site where
  files := { nodes := [(["home", "f.ttf"], .file [])], working := ["home"] }
  fontsVariable := none
  home := ⟨.working, []⟩

/-- A small label without commands that draws with the font. -/
def LabelSource.small : LabelSource where
  markup := ""
  size := .ok (10, 10)
  font := .ok (Text.CodePoints.ofString "f.ttf")
  fontsDir := .ok none

namespace Label

open Command

/-- What is to be painted for a stream, and the fields that symbols are drawn for. -/
def outline (cs : List Command) : Plan × List Int :=
  (Plan.items (plan .initial cs), Plan.symbolFields cs)

theorem outline_wordless (cs : List Command) : outline (cs.map wordless) = outline cs := by
  rw [outline, plan_wordless, Plan.symbolFields_wordless, outline]

theorem outline_leadCommands (lead : List Char) (cs : List Command) :
    outline (leadCommands lead ++ cs) = outline cs := by
  rw [leadCommands]
  split
  · rfl
  · rw [List.singleton_append, outline, items_plan_unrecognized_cons]
    rfl

/-- The lines of a markup have the outline of their bodies. -/
theorem map_outline_ofLines {lead : List Char} (h : Blanks lead) (lines : List MarkupLine) :
    (ofMarkup (ofLines lead lines)).map outline = (ofMarkup (ofLineBodies lines)).map outline := by
  have hwordless (read : Except Fault (List Command)) :
      read.map outline = (read.map (List.map wordless)).map outline := by
    cases read with
    | error fault => rfl
    | ok cs => exact congrArg Except.ok (outline_wordless cs).symm
  have hlead (read : Except Fault (List Command)) :
      (read.map (leadCommands lead ++ ·)).map outline = read.map outline := by
    cases read with
    | error fault => rfl
    | ok cs => exact congrArg Except.ok (outline_leadCommands lead cs)
  rw [ofMarkup_ofLines h, hlead, ofMarkup_ofLineBodies, hwordless, mapM_ofBody_written,
    ← hwordless]

/-- Streams of one outline give the same canvas or the same fault. -/
theorem result_paintReported_congr {cs ds : List Command} (h : outline cs = outline ds)
    (files : Files.Tree) (fontPath : Option String) (c : Canvas) :
    (paintReported files fontPath c cs).result = (paintReported files fontPath c ds).result := by
  obtain ⟨hcanvas, hfault⟩ := Canvas.performAll_congr files fontPath (congrArg Prod.fst h) c
  simp only [paintReported, paint, hfault, hcanvas]
  split <;> rfl

/-- What depends on the outline of a stream alone comes out the same for markups of one outline. -/
theorem bind_ofMarkup_congr {α : Type} {markup markup' : String}
    (h : (ofMarkup markup).map outline = (ofMarkup markup').map outline)
    {next : List Command → Except Fault α}
    (hnext : ∀ {cs ds}, outline cs = outline ds → next cs = next ds) :
    (ofMarkup markup).bind next = (ofMarkup markup').bind next := by
  cases hm : ofMarkup markup with
  | error fault =>
      cases hm' : ofMarkup markup' with
      | error fault' =>
          rw [hm, hm'] at h
          cases h
          rfl
      | ok ds =>
          rw [hm, hm'] at h
          cases h
  | ok cs =>
      cases hm' : ofMarkup markup' with
      | error fault' =>
          rw [hm, hm'] at h
          cases h
      | ok ds =>
          rw [hm, hm'] at h
          exact hnext (Except.ok.inj h)

/-- Line breaks and blanks after commands change neither the canvas of a label, or the fault that it
ends in, nor the fields that symbols are drawn for. -/
theorem build_ofLines (site : Font.Site) (r : LabelSource) {lead : List Char} (h : Blanks lead)
    (lines : List MarkupLine) :
    (build site { r with markup := ofLines lead lines }).result =
        (build site { r with markup := ofLineBodies lines }).result ∧
      (ofMarkup (ofLines lead lines)).map Plan.symbolFields =
        (ofMarkup (ofLineBodies lines)).map Plan.symbolFields := by
  have houtline := map_outline_ofLines h lines
  constructor
  · simp only [build, Reported.result_andThen, Reported.of]
    refine congrArg r.size.bind (funext fun size => ?_)
    refine congrArg r.font.bind (funext fun selector => ?_)
    refine congrArg (chooseFont site selector r.fontsDir).result.bind (funext fun fontPath => ?_)
    refine congrArg r.fontsDir.bind (funext fun fontsDir => ?_)
    exact bind_ofMarkup_congr houtline fun hsame => result_paintReported_congr hsame ..
  · have hsnd (read : Except Fault (List Command)) :
        read.map Plan.symbolFields = (read.map outline).map Prod.snd := by
      cases read <;> rfl
    rw [hsnd, houtline, ← hsnd]

/-- A label with one command on a line. Its fourth line is not recognized. -/
def smallLines : List MarkupLine :=
  [⟨"FO5,7".toList, " \r\n".toList, by decide, by decide⟩,
    ⟨"FD a".toList, "\n\t".toList, by decide, by decide⟩,
    ⟨"FS".toList, "\n".toList, by decide, by decide⟩,
    ⟨"XZ".toList, "\n\n".toList, by decide, by decide⟩]

theorem build_ofLines_smallLines :
    Blanks "\n ".toList ∧
      (build .small { LabelSource.small with markup := ofLines "\n ".toList smallLines }).result =
        (build .small { LabelSource.small with markup := ofLineBodies smallLines }).result ∧
      (ofMarkup (ofLines "\n ".toList smallLines)).map Plan.symbolFields =
        (ofMarkup (ofLineBodies smallLines)).map Plan.symbolFields :=
  ⟨by decide, build_ofLines .small .small (by decide) smallLines⟩

end Label

end LabelPress
