import LabelPress.Proofs.Canvas.FontTables

/-!
# Histories of a canvas

A canvas is worked on by any operations, some of which fail, while the files beside it change.
Nothing painted is taken back, a family keeps the bytes that its file had when it was first
embedded, and a text that was drawn has its family embedded for good.
-/

namespace LabelPress

open LabelPress.Files

namespace Desk

variable {d : Desk} {family : String} {bytes : List UInt8}

/-- The path of the font that an operation draws with, if it is asked to draw with one. -/
def Operation.fontPath : Operation → Option String
  | .drawText line => line.fontPath
  | .carryOut fontPath _ => fontPath
  | _ => none

/-! ## One operation -/

/-- A piece that is added comes after what was painted, or nothing is. -/
theorem prefix_primitives_add (c : Canvas) (files : Tree) (piece : Painting.Piece) :
    c.primitives <+: (c.add files piece).canvas.primitives := by
  rw [Canvas.add]
  cases he : c.embed files piece.font with
  | error fault => exact List.prefix_rfl
  | ok d =>
      rw [Canvas.primitives_paint, Canvas.primitives_embed he]
      exact List.prefix_append _ _

/-- An operation paints after what was painted, also if it fails. -/
theorem prefix_primitives_act (d : Desk) (o : Operation) :
    d.canvas.primitives <+: (d.act o).desk.canvas.primitives := by
  cases o with
  | paint primitive => exact List.prefix_append _ _
  | drawText line => exact prefix_primitives_add _ _ _
  | carryOut fontPath plan =>
      change _ <+: (d.canvas.performAll d.files fontPath plan).canvas.primitives
      rw [Canvas.primitives_performAll]
      exact List.prefix_append _ _
  | document | write | delete => exact List.prefix_rfl

/-- An operation embeds at most the font that it draws with, also if it fails. -/
theorem grows_act (d : Desk) (o : Operation) :
    d.canvas.Grows d.files o.fontPath (d.act o).desk.canvas := by
  cases o with
  | paint primitive => exact (Canvas.Grows.refl _).paint _
  | drawText line => exact Canvas.Grows.of_add _ _
  | carryOut fontPath plan => exact Canvas.Grows.of_performAll _ _
  | document | write | delete => exact Canvas.Grows.refl _

/-! ## Runs -/

theorem prefix_primitives_run (d : Desk) (os : List Operation) :
    d.canvas.primitives <+: (d.run os).canvas.primitives := by
  induction os generalizing d with
  | nil => exact List.prefix_rfl
  | cons o rest ih => exact (prefix_primitives_act d o).trans (ih _)

/-- A family keeps its bytes for the rest of a run. -/
theorem get?_registry_run (h : d.canvas.registry.get? family = some bytes) (os : List Operation) :
    (d.run os).canvas.registry.get? family = some bytes := by
  induction os generalizing d with
  | nil => exact h
  | cons o rest ih => exact ih ((grows_act d o).keeps h)

/-- A family came in with an operation of a run that drew with its path: it had no bytes until then,
and its file had these. -/
def FirstEmbedded (d : Desk) (os : List Operation) (family : String) (bytes : List UInt8) : Prop :=
  ∃ before o after path, os = before ++ o :: after ∧
    o.fontPath = some path ∧ Font.family (some path) = family ∧
    (d.run before).canvas.registry.get? family = none ∧
    (d.run before).files.read path = .ok bytes ∧
    (d.run (before ++ [o])).canvas.registry.get? family = some bytes

theorem FirstEmbedded.cons {o : Operation} {os : List Operation}
    (h : FirstEmbedded (d.act o).desk os family bytes) :
    FirstEmbedded d (o :: os) family bytes := by
  obtain ⟨before, o', after, path, rfl, hrest⟩ := h
  exact ⟨o :: before, o', after, path, rfl, hrest⟩

/-- What is embedded after a run was embedded before it, or came in with one of its operations. -/
theorem embedded_or_firstEmbedded {os : List Operation}
    (h : (d.run os).canvas.registry.get? family = some bytes) :
    d.canvas.registry.get? family = some bytes ∨ FirstEmbedded d os family bytes := by
  induction os generalizing d with
  | nil => exact Or.inl h
  | cons o rest ih =>
      rcases ih h with hact | hlater
      · rcases (grows_act d o).get?_registry hact with hold | ⟨hnone, path, hpath, hfamily, hread⟩
        · exact Or.inl hold
        · exact Or.inr ⟨[], o, rest, path, rfl, hpath, hfamily, hnone, hread, hact⟩
      · exact Or.inr hlater.cons

/-- The texts that a plan painted in the course of a run have their family embedded at its end. -/
theorem mem_keys_run_of_performed {before after : List Operation} {fontPath : Option String}
    {plan : Plan} {t : Task}
    (ht : t ∈ (d.run before).canvas.performed (d.run before).files fontPath plan)
    (h : t.drawsText = true) : Font.family fontPath ∈
      Entries.keys (d.run (before ++ .carryOut fontPath plan :: after)).canvas.registry := by
  obtain ⟨bytes, hb⟩ := Entries.exists_get?_iff.mpr (Canvas.mem_keys_of_performed ht h)
  rw [run_append, run_cons]
  let drawn := ((d.run before).act (.carryOut fontPath plan)).desk
  exact Entries.exists_get?_iff.mp ⟨bytes, @get?_registry_run drawn _ _ hb after⟩

/-- From an empty canvas, whatever is done and whatever fails: what is painted stays at the start of
what is painted later, and a family keeps its bytes, which its file had when it was first embedded.
Texts that were painted have their family embedded. The tables of paths and bytes agree with the
canvas, every family has a path of its own, and the rules of the families are made from the tables;
for the whole style sheet the standing fonts must be asked about. -/
theorem run_keeps (width height : Int) (fontsDir : Path) (files : Tree) (os : List Operation) :
    let start : Desk := ⟨{ width, height, fontsDir }, files⟩
    let d := start.run os
    let tables := FontTables.run {} start os
    (∀ ps, d.canvas.primitives <+: (start.run (os ++ ps)).canvas.primitives ∧
      ∀ family bytes, d.canvas.registry.get? family = some bytes →
        (start.run (os ++ ps)).canvas.registry.get? family = some bytes) ∧
    (∀ family bytes, d.canvas.registry.get? family = some bytes →
      FirstEmbedded start os family bytes) ∧
    (∀ before fontPath plan after, os = before ++ .carryOut fontPath plan :: after →
      ∀ t ∈ (start.run before).canvas.performed (start.run before).files fontPath plan,
        t.drawsText = true → Font.family fontPath ∈ Entries.keys d.canvas.registry) ∧
    tables.bytes = d.canvas.registry ∧
    (∀ family ∈ Entries.keys d.canvas.registry, ∃ path,
      tables.paths.get? family = some path ∧ Font.family (some path) = family) ∧
    ∃ own, tables.faces? = some own ∧ ∀ files,
      (∃ standing, Svg.fontFaces files d.canvas = .ok (own ++ standing)) ↔
        ∀ s ∈ Font.standing, files.find (d.canvas.fontsDir.below [s.2]).text ≠ .tooLong := by
  intro start d tables
  have hempty : FontTables.Holds {} start.canvas := ⟨rfl, nofun, nofun⟩
  have hholds : FontTables.Holds tables d.canvas := hempty.run os
  refine ⟨fun ps => ⟨?_, ?_⟩, ?_, ?_, hholds.bytes, ?_, _, hholds.faces?, fun files =>
    exists_fontFaces_iff⟩
  · rw [run_append]
    exact prefix_primitives_run d ps
  · intro family bytes hb
    rw [run_append]
    exact get?_registry_run hb ps
  · intro family bytes hb
    exact (embedded_or_firstEmbedded hb).resolve_left nofun
  · rintro before fontPath plan after rfl t ht hdraws
    exact mem_keys_run_of_performed ht hdraws
  · intro family hfamily
    obtain ⟨⟨_, _⟩, he, rfl⟩ := List.mem_map.mp hfamily
    obtain ⟨f, hf, hpair⟩ := List.mem_map.mp he
    cases hpair
    exact ⟨f.path, hholds.paths f hf, hholds.family _ _ (hholds.paths f hf)⟩

/-- A canvas whose folder of fonts has a name of 256 characters. -/
def longFolder : Canvas where
  width := 400
  height := 300
  fontsDir := ⟨.working, [String.ofList (List.replicate 256 'x')]⟩

/-- On an empty canvas there is no style sheet either if the standing fonts cannot be asked
about. -/
theorem not_exists_fontFaces_longFolder :
    ¬ ∃ faces, Svg.fontFaces .empty (Desk.run ⟨longFolder, .empty⟩ []).canvas = .ok faces := by
  rintro ⟨faces, hfaces⟩
  have hlong : nameLimit < (String.ofList (List.replicate 256 'x')).utf8ByteSize := by
    decide +kernel
  have hnot (c : Char) (hc : c ≠ 'x') : c ∉ (String.ofList (List.replicate 256 'x')).toList := by
    rw [String.toList_ofList]
    exact fun hmem => hc (List.eq_of_mem_replicate hmem)
  have hplain : (longFolder.fontsDir.below ["Swiss721BT-Roman.otf"]).Plain := by
    refine List.forall_mem_cons.mpr ⟨⟨fun hempty => ?_, hnot '/' (by decide)⟩, by decide⟩
    rw [hempty] at hlong
    exact absurd hlong (by decide)
  have hnull : ∀ name ∈ (longFolder.fontsDir.below ["Swiss721BT-Roman.otf"]).names,
      '\x00' ∉ name.toList :=
    List.forall_mem_cons.mpr ⟨hnot '\x00' (by decide), by decide⟩
  have hfind := Tree.find_text_of_long (t := .empty) hplain hnull rfl hlong
  have hasked := exists_fontFaces_iff.mp ⟨faces, hfaces⟩
  exact hasked ("Swiss721BT-Roman", "Swiss721BT-Roman.otf") (by decide) hfind

end Desk

end LabelPress
