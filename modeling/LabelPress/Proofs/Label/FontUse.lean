import LabelPress.Proofs.Label.FieldShares
import LabelPress.Proofs.Label.Payloads
import LabelPress.Proofs.Painting.Ranges
import LabelPress.Proofs.Stream.Settled

/-!
# Who needs the font

Only a text that is painted looks for the font, so a missing font ends the painting of a label at
its first text and is never noticed without one. The texts of a label can be told from its commands.
-/

namespace LabelPress

/-- No font is named, or its path is empty or leads to no file. -/
def Font.Missing (files : Files.Tree) (fontPath : Option String) : Prop :=
  ∀ path, fontPath = some path → path = "" ∨ files.isFile path = false

theorem Font.require_of_missing {files : Files.Tree} {fontPath : Option String}
    (h : Font.Missing files fontPath) :
    Font.require files fontPath = .error (.fontNotFound fontPath) := by
  cases fontPath with
  | none => rfl
  | some path => rcases h path rfl with hp | hp <;> simp [Font.require, hp]

/-! ## Tasks -/

/-- Whether a task draws with the font. -/
def Task.drawsText : Task → Bool
  | .text line _ => line ≠ ""
  | _ => false

section Tasks

variable {files files' : Files.Tree} {fontPath fontPath' : Option String} {t : Task}

/-- A task without a text comes to the same with any font. -/
theorem piece_of_not_drawsText (h : t.drawsText = false) (files files' : Files.Tree)
    (fontPath fontPath' : Option String) :
    Painting.piece files fontPath t = Painting.piece files' fontPath' t := by
  cases t with
  | text line layout =>
      have hline : line = "" := by simpa [Task.drawsText] using h
      simp only [Painting.piece, Painting.textPiece, if_pos hline]
  | _ => rfl

/-- A task without a text asks for no font. -/
theorem font_of_not_drawsText (h : t.drawsText = false) {p : Painting.Piece}
    (hp : Painting.piece files fontPath t = .ok p) : p.font = none := by
  cases t with
  | text line layout =>
      have hline : line = "" := by simpa [Task.drawsText] using h
      simp only [Painting.piece, Painting.textPiece, if_pos hline, Except.ok.injEq] at hp
      rw [← hp]
  | symbol s x y =>
      simp only [Painting.piece, Painting.symbolPiece] at hp
      cases hw : Barcode.drawnWidth s.moduleWidth with
      | error fault => simp [hw, bind, Except.bind] at hp
      | ok drawn =>
          simp only [hw, bind, Except.bind, pure, Except.pure, Except.ok.injEq] at hp
          rw [← hp]
  | _ =>
      cases hp
      rfl

/-- A task without a text is carried out alike with any font. -/
theorem perform_of_not_drawsText (h : t.drawsText = false) (files files' : Files.Tree)
    (fontPath fontPath' : Option String) (c : Canvas) :
    c.perform files fontPath t = c.perform files' fontPath' t := by
  rw [Canvas.perform, Canvas.perform, piece_of_not_drawsText h files files' fontPath fontPath']
  cases hp : Painting.piece files' fontPath' t with
  | error fault => rfl
  | ok p => simp only [Canvas.add, font_of_not_drawsText h hp, Canvas.embed, Canvas.embedJournal]

/-- A task without a text embeds no font. -/
theorem fonts_perform_of_not_drawsText (h : t.drawsText = false) (c : Canvas) :
    (c.perform files fontPath t).canvas.fonts = c.fonts := by
  rcases Canvas.perform_cases files fontPath c t with ⟨fault, hf⟩ | ⟨p, d, hp, he, hf⟩
  · rw [hf]
  · rw [font_of_not_drawsText h hp] at he
    obtain rfl : c = d := Except.ok.inj he
    rw [hf, Canvas.fonts_paint]

/-- A text is not painted with a font that is missing. -/
theorem fault_perform_of_drawsText (hfont : Font.Missing files fontPath)
    (h : t.drawsText = true) (c : Canvas) :
    (c.perform files fontPath t).fault = some (.fontNotFound fontPath) := by
  cases t with
  | text line layout =>
      have hline : line ≠ "" := by simpa [Task.drawsText] using h
      have hpiece : Painting.piece files fontPath (.text line layout) =
          .error (.fontNotFound fontPath) := by
        simp only [Painting.piece, Painting.textPiece, if_neg hline,
          Font.require_of_missing hfont, bind, Except.bind]
      simp only [Canvas.perform, hpiece]
  | _ => cases h

end Tasks

/-! ## Plans -/

section Plans

variable {p : Plan}

/-- A plan without texts is carried out alike with any font. -/
theorem performAll_of_not_drawsText (h : ∀ t ∈ p, t.drawsText = false)
    (files files' : Files.Tree) (fontPath fontPath' : Option String) (c : Canvas) :
    c.performAll files fontPath p = c.performAll files' fontPath' p := by
  induction p generalizing c with
  | nil => rfl
  | cons t rest ih =>
      obtain ⟨ht, hrest⟩ := List.forall_mem_cons.mp h
      rw [Canvas.performAll, Canvas.performAll,
        perform_of_not_drawsText ht files files' fontPath fontPath']
      congr 1
      funext d
      exact ih hrest d

/-- A plan without texts embeds no font. -/
theorem fonts_performAll_of_not_drawsText (h : ∀ t ∈ p, t.drawsText = false)
    (files : Files.Tree) (fontPath : Option String) (c : Canvas) :
    (c.performAll files fontPath p).canvas.fonts = c.fonts := by
  induction p generalizing c with
  | nil => rfl
  | cons t rest ih =>
      obtain ⟨ht, hrest⟩ := List.forall_mem_cons.mp h
      have hfonts : (c.perform files fontPath t).canvas.fonts = c.fonts :=
        fonts_perform_of_not_drawsText ht c
      cases hfault : (c.perform files fontPath t).fault with
      | some fault => rw [Canvas.performAll_cons_of_fault hfault, hfonts]
      | none => rw [Canvas.canvas_performAll_cons hfault, ih hrest, hfonts]

/-- A plan whose sizes can be computed fails at its first text if the font is missing. -/
theorem fault_performAll_of_missing {files : Files.Tree} {fontPath : Option String}
    (hfont : Font.Missing files fontPath) (hrange : ∀ t ∈ p, t.InRange)
    (h : ∃ t ∈ p, t.drawsText = true) (c : Canvas) :
    (c.performAll files fontPath p).fault = some (.fontNotFound fontPath) := by
  induction p generalizing c with
  | nil => exact absurd h (by simp)
  | cons t rest ih =>
      obtain ⟨ht, hrest⟩ := List.forall_mem_cons.mp hrange
      cases hdraws : t.drawsText with
      | true =>
          have hfault := fault_perform_of_drawsText hfont hdraws c
          rw [Canvas.performAll_cons_of_fault hfault, hfault]
      | false =>
          -- what the task comes to does not depend on the font, so any file shows that it succeeds
          have hfile : Files.Tree.oneFont.isFile "f" = true := by decide +kernel
          have hfault : (c.perform files fontPath t).fault = none := by
            rw [perform_of_not_drawsText hdraws files .oneFont fontPath (some "f")]
            exact (fault_perform_iff hfile c t).mpr ht
          have hlater : ∃ u ∈ rest, u.drawsText = true := by
            obtain ⟨u, hu, hdrawn⟩ := h
            rcases List.mem_cons.mp hu with rfl | hu
            · rw [hdraws] at hdrawn
              cases hdrawn
            · exact ⟨u, hu, hdrawn⟩
          rw [Canvas.fault_performAll_cons hfault]
          exact ih hrest hlater _

end Plans

/-! ## Labels -/

namespace Command

/-- A text that is not empty stands where no field was declared among the last commands. -/
def HasOwnText (cs : List Command) : Prop :=
  ∃ before text after, cs = before ++ .fieldData text :: after ∧ text ≠ "" ∧
    ∀ n, .fieldNumber n ∉ before.rtake lookback

/-- A field of the template is bound to a text that is not empty, and no symbol is drawn for it. -/
def HasFieldText (cs : List Command) : Prop :=
  ∃ n text, FieldData.LastBinding cs n text ∧ text ≠ "" ∧ .fieldNumber n ∈ template cs ∧
    ¬ HasSymbol cs n

end Command

namespace Label

open Plan

/-- The scan that paints comes upon a text exactly if the commands have one of their own. -/
theorem exists_drawsText_ofCommands_iff (data : FieldData) (start : DrawingState)
    (cs : List Command) :
    (∃ t ∈ ofCommands data start cs, t.drawsText = true) ↔ Command.HasOwnText cs := by
  rw [ofCommands_eq_filterMap_range]
  constructor
  · rintro ⟨t, ht, hdraws⟩
    obtain ⟨j, -, hj⟩ := List.mem_filterMap.mp ht
    cases t with
    | text line layout =>
        obtain ⟨hc, hne, hwithin⟩ := paintedAt_iff.mp ⟨layout, hj⟩
        obtain ⟨hlt, hget⟩ := List.getElem?_eq_some_iff.mp hc
        refine ⟨cs.take j, line, cs.drop (j + 1), ?_, hne,
          Command.declaredWithin_reverse.mp hwithin⟩
        rw [← hget, ← List.drop_eq_getElem_cons hlt, List.take_append_drop]
    | _ => cases hdraws
  · rintro ⟨before, text, after, rfl, hne, hwithin⟩
    have hpainted : PaintedAt data start (before ++ .fieldData text :: after) before.length
        text := by
      refine paintedAt_iff.mpr ⟨by simp, hne, ?_⟩
      rw [List.take_left]
      exact Command.declaredWithin_reverse.mpr hwithin
    obtain ⟨layout, htask⟩ := hpainted
    refine ⟨.text text layout, List.mem_filterMap.mpr ⟨before.length, ?_, htask⟩, ?_⟩
    · simp
    · simpa [Task.drawsText] using hne

/-- A bound field asks for a text exactly if it has one, is laid out, and no symbol is drawn for
it. -/
theorem drawsText_fieldTask?_iff {layouts : FieldLayouts} {drawn : List Int} {n : Int}
    {text : String} :
    (∃ t, fieldTask? layouts drawn (n, text) = some t ∧ t.drawsText = true) ↔
      text ≠ "" ∧ Entries.get? n layouts ≠ none ∧ n ∉ drawn := by
  by_cases ht : text = ""
  · simp [fieldTask?, ht]
  · cases hl : Entries.get? n layouts with
    | none => simp [fieldTask?, ht, hl, Task.drawsText]
    | some layout =>
        by_cases hn : n ∈ drawn <;> simp [fieldTask?, ht, hl, hn, Task.drawsText]

/-- The fields of a label ask for a text exactly if one of them is painted as a text. -/
theorem exists_drawsText_ofFields_iff (cs : List Command) :
    (∃ t ∈ ofFields (FieldData.ofCommands cs) (FieldLayouts.ofCommands .initial cs)
        (symbolFields cs), t.drawsText = true) ↔ Command.HasFieldText cs := by
  have hfield : ∀ n text, (n, text) ∈ FieldData.ofCommands cs ↔
      FieldData.LastBinding cs n text := fun n text => by
    rw [Entries.mem_iff_get? (FieldData.nodup_keys_ofCommands cs),
      FieldData.get?_ofCommands_eq_some_iff]
  have hlaid : ∀ n, Entries.get? n (FieldLayouts.ofCommands .initial cs) ≠ none ↔
      .fieldNumber n ∈ Command.template cs := fun n => by
    rw [ne_eq, FieldLayouts.get?_ofCommands_eq_none_iff, not_not]
  constructor
  · rintro ⟨t, ht, hdraws⟩
    obtain ⟨⟨n, text⟩, hmem, htask⟩ := List.mem_filterMap.mp ht
    obtain ⟨hne, hlayout, hdrawn⟩ := drawsText_fieldTask?_iff.mp ⟨t, htask, hdraws⟩
    exact ⟨n, text, (hfield n text).mp hmem, hne, (hlaid n).mp hlayout, mt hasSymbol_iff.mp hdrawn⟩
  · rintro ⟨n, text, hlast, hne, hdeclared, hsymbol⟩
    obtain ⟨t, htask, hdraws⟩ := drawsText_fieldTask?_iff.mpr
      ⟨hne, (hlaid n).mpr hdeclared, mt hasSymbol_iff.mpr hsymbol⟩
    exact ⟨t, List.mem_filterMap.mpr ⟨(n, text), (hfield n text).mpr hlast, htask⟩, hdraws⟩

/-- A label asks for a text exactly if it has one of its own or one of a field. -/
theorem exists_drawsText_plan_iff (cs : List Command) :
    (∃ t ∈ plan .initial cs, t.drawsText = true) ↔
      Command.HasOwnText cs ∨ Command.HasFieldText cs := by
  rw [← exists_drawsText_ofCommands_iff (FieldData.ofCommands cs) .initial cs,
    ← exists_drawsText_ofFields_iff, plan]
  simp only [List.mem_append, or_and_right, exists_or]

theorem not_drawsText_of_mem_plan {cs : List Command}
    (h : ¬ (Command.HasOwnText cs ∨ Command.HasFieldText cs)) :
    ∀ t ∈ plan .initial cs, t.drawsText = false := by
  intro t ht
  rw [← Bool.not_eq_true]
  intro hdraws
  exact h ((exists_drawsText_plan_iff cs).mp ⟨t, ht, hdraws⟩)

/-- Take a label that can be painted with some font. With a missing font it fails for that font
exactly if it has a text of its own or a text of a field. Without either it comes to the same with
every font, be it missing or not, and embeds none. The fields that symbols are drawn for depend on
the commands alone. -/
theorem paint_of_missing_font {c : Canvas} {cs : List Command}
    (h : ∃ files path, files.isFile path = true ∧ (paint files (some path) c cs).fault = none) :
    (∀ files fontPath, Font.Missing files fontPath →
      ((paint files fontPath c cs).fault = some (.fontNotFound fontPath) ↔
        Command.HasOwnText cs ∨ Command.HasFieldText cs)) ∧
    (¬ (Command.HasOwnText cs ∨ Command.HasFieldText cs) →
      ∃ painted : Painted, painted.fault = none ∧ painted.canvas.fonts = c.fonts ∧
        ∀ files fontPath, paint files fontPath c cs = painted) := by
  obtain ⟨files, path, hfile, hpainted⟩ := h
  have hrange := (fault_performAll_iff hfile c _).mp hpainted
  have hsame : ¬ (Command.HasOwnText cs ∨ Command.HasFieldText cs) →
      ∀ files' fontPath, paint files' fontPath c cs = paint files (some path) c cs :=
    fun hnone files' fontPath =>
      performAll_of_not_drawsText (not_drawsText_of_mem_plan hnone) files' files fontPath _ c
  constructor
  · intro files' fontPath hfont
    constructor
    · intro hfault
      by_contra hnone
      rw [hsame hnone, hpainted] at hfault
      cases hfault
    · intro htext
      exact fault_performAll_of_missing hfont hrange ((exists_drawsText_plan_iff cs).mpr htext) c
  · intro hnone
    exact ⟨_, hpainted,
      fonts_performAll_of_not_drawsText (not_drawsText_of_mem_plan hnone) files _ c, hsame hnone⟩

/-- A label of a box and a symbol with its payload under it, but no text to be painted. -/
def boxAndSymbol : List Command :=
  [.graphicBox ⟨10, 10, 2⟩, .fieldSeparator, .code128 40 "Y", .fieldNumber 2, .fieldData "AB"]

/-- With a font that is missing the label of a field fails, and the label of a symbol is painted as
with any other. -/
theorem paint_of_missing_font_symbol :
    Files.Tree.oneFont.isFile "f" = true ∧ Font.Missing .oneFont (some "g") ∧
      (paint .oneFont (some "f") .small fieldAndSymbol).fault = none ∧
      (paint .oneFont (some "f") .small boxAndSymbol).fault = none ∧
      (paint .oneFont (some "g") .small fieldAndSymbol).fault = some (.fontNotFound (some "g")) ∧
      ∃ painted : Painted, painted.fault = none ∧ painted.canvas.fonts = [] ∧
        ∀ files fontPath, paint files fontPath .small boxAndSymbol = painted := by
  have hfile : Files.Tree.oneFont.isFile "f" = true := by decide +kernel
  have hmissing : Font.Missing .oneFont (some "g") := by
    intro path hpath
    cases hpath
    exact Or.inr (by decide +kernel)
  have hfield : (paint .oneFont (some "f") .small fieldAndSymbol).fault = none := by
    decide +kernel
  have hsymbol : (paint .oneFont (some "f") .small boxAndSymbol).fault = none := by
    decide +kernel
  have htext : Command.HasFieldText fieldAndSymbol := by
    refine ⟨1, "Ham", FieldData.get?_ofCommands_eq_some_iff.mp (by decide +kernel), by decide,
      by decide, ?_⟩
    rw [hasSymbol_iff]
    decide
  have hnone : ¬ (Command.HasOwnText boxAndSymbol ∨ Command.HasFieldText boxAndSymbol) := by
    rw [← exists_drawsText_plan_iff]
    decide +kernel
  exact ⟨hfile, hmissing, hfield, hsymbol,
    ((paint_of_missing_font ⟨_, _, hfile, hfield⟩).1 _ _ hmissing).mpr (Or.inr htext),
    (paint_of_missing_font ⟨_, _, hfile, hsymbol⟩).2 hnone⟩

end Label

end LabelPress
