import LabelPress.Proofs.Label.FontUse

/-!
# The registry of a canvas

The bytes of the embedded fonts by their families. With one set of files and one font path a canvas
takes in at most one font, whose family it did not have, with the bytes that the file has; a text
that was painted has its family in the registry.
-/

namespace LabelPress

open LabelPress.Files

namespace Canvas

variable {files : Tree} {fontPath : Option String} {c d e : Canvas} {family : String}

/-- The bytes of the embedded fonts by their families. -/
def registry (c : Canvas) : Entries String (List UInt8) := c.fonts.map fun f => (f.family, f.bytes)

theorem embeds_eq_true_iff : c.embeds family = true ↔ family ∈ Entries.keys c.registry := by
  simp [embeds, registry, Entries.keys]

theorem embeds_eq_false_iff : c.embeds family = false ↔ family ∉ Entries.keys c.registry := by
  rw [← embeds_eq_true_iff, Bool.not_eq_true]

/-- More fonts are more of the registry. -/
theorem registry_of_fonts {fs : List EmbeddedFont} (h : d.fonts = c.fonts ++ fs) :
    d.registry = c.registry ++ fs.map fun f => (f.family, f.bytes) := by
  rw [registry, h, List.map_append, registry]

/-- A later canvas with the same fonts, or with one font more: that of a path, of a family that was
not embedded, with the bytes of its file. -/
def Grows (files : Tree) (fontPath : Option String) (c d : Canvas) : Prop :=
  d.fonts = c.fonts ∨ ∃ path bytes, fontPath = some path ∧
    Font.family (some path) ∉ Entries.keys c.registry ∧ files.read path = .ok bytes ∧
      d.fonts = c.fonts ++ [⟨path, bytes⟩]

theorem Grows.refl (c : Canvas) : Grows files fontPath c c := Or.inl rfl

/-- A family that was taken in is not taken in again. -/
theorem Grows.trans (h : Grows files fontPath c d) (h' : Grows files fontPath d e) :
    Grows files fontPath c e := by
  rcases h' with hd | ⟨path', bytes', hpath', hnew', hread', hd⟩
  · rw [Grows, hd]
    exact h
  · rcases h with hc | ⟨path, bytes, hpath, hnew, hread, hc⟩
    · have hreg : d.registry = c.registry := by rw [registry, hc, registry]
      exact Or.inr ⟨path', bytes', hpath', hreg ▸ hnew', hread', by rw [hd, hc]⟩
    · obtain rfl : path = path' := Option.some.inj (hpath.symm.trans hpath')
      have hmem : Font.family (some path) ∈ Entries.keys d.registry := by
        rw [registry_of_fonts hc]
        simp [Entries.keys, EmbeddedFont.family]
      exact absurd hmem hnew'

/-- What the registry of a later canvas says of a family is what it said before, or what the file of
the font says now. -/
theorem Grows.get?_registry (h : Grows files fontPath c d) {bytes : List UInt8}
    (hb : Entries.get? family d.registry = some bytes) :
    Entries.get? family c.registry = some bytes ∨
      Entries.get? family c.registry = none ∧ ∃ path, fontPath = some path ∧
        Font.family (some path) = family ∧ files.read path = .ok bytes := by
  rcases h with hc | ⟨path, new, hpath, hnew, hread, hc⟩
  · exact Or.inl (by rwa [registry, hc] at hb)
  · rw [registry_of_fonts hc, Entries.get?_append] at hb
    cases hold : Entries.get? family c.registry with
    | some old =>
        rw [hold, Option.some_or] at hb
        exact Or.inl hb
    | none =>
        rw [hold, Option.none_or] at hb
        simp only [List.map_cons, List.map_nil, Entries.get?_cons, Entries.get?_nil] at hb
        split at hb
        · next hfamily =>
            obtain rfl : new = bytes := Option.some.inj hb
            exact Or.inr ⟨rfl, path, hpath, hfamily, hread⟩
        · cases hb

/-- A family keeps its bytes. -/
theorem Grows.keeps (h : Grows files fontPath c d) {bytes : List UInt8}
    (hb : Entries.get? family c.registry = some bytes) :
    Entries.get? family d.registry = some bytes := by
  rcases h with hc | ⟨path, new, -, -, -, hc⟩
  · rwa [registry, hc]
  · rw [registry_of_fonts hc, Entries.get?_append, hb, Option.some_or]

/-! ## Embedding -/

/-- A canvas whose font is embedded grows by it at most. -/
theorem Grows.of_embed (h : c.embed files fontPath = .ok d) : Grows files fontPath c d := by
  cases fontPath with
  | none =>
      obtain rfl : c = d := Except.ok.inj h
      exact Grows.refl c
  | some path =>
      simp only [embed, bind, Except.bind, pure, Except.pure] at h
      split at h
      · cases h
      · next takes htakes =>
          split at h
          · next hyes =>
              split at h
              · cases h
              · next bytes hread =>
                  cases h
                  refine Or.inr ⟨path, bytes, rfl, fun hmem => ?_, hread, rfl⟩
                  rw [takesIn, embeds_eq_true_iff.mpr hmem, Bool.or_true, if_pos rfl] at htakes
                  exact absurd (Except.ok.inj htakes ▸ hyes) (by decide)
          · cases h
            exact Grows.refl c

theorem Grows.keys_subset (h : Grows files fontPath c d) :
    Entries.keys c.registry ⊆ Entries.keys d.registry := by
  intro family hmem
  obtain ⟨bytes, hb⟩ := Entries.exists_get?_iff.mpr hmem
  exact Entries.exists_get?_iff.mp ⟨bytes, h.keeps hb⟩

/-- A font whose file exists has its family in the registry once it is embedded. -/
theorem mem_keys_of_embed {path : String} (hfile : files.isFile path = true)
    (h : c.embed files (some path) = .ok d) :
    Font.family (some path) ∈ Entries.keys d.registry := by
  by_cases hmem : Font.family (some path) ∈ Entries.keys c.registry
  · exact (Grows.of_embed h).keys_subset hmem
  · obtain ⟨bytes, hfind⟩ := exists_of_isFile hfile
    have hne := ne_empty_of_isFile hfile
    have hnot := embeds_eq_false_iff.mpr hmem
    have hprobe := probeFile_of_isFile hfile
    have hread : files.read path = .ok bytes := Tree.read_eq_ok_iff.mpr hfind
    simp only [embed, takesIn, hne, decide_false, Bool.false_or, hnot, Bool.false_eq_true, if_false,
      hprobe, hread, bind, Except.bind, if_true, pure, Except.pure, Except.ok.injEq] at h
    simp [← h, registry, Entries.keys, EmbeddedFont.family]

/-! ## Painting -/

theorem require_eq_ok_iff {path : String} : Font.require files fontPath = .ok path ↔
    fontPath = some path ∧ files.isFile path = true := by
  constructor
  · intro h
    cases fontPath with
    | none => cases h
    | some named =>
        rw [Font.require] at h
        split at h
        · next hyes =>
            obtain rfl : named = path := Except.ok.inj h
            exact ⟨rfl, (Bool.and_eq_true_iff.mp hyes).2⟩
        · cases h
  · rintro ⟨rfl, h⟩
    exact require_of_isFile h

/-- A text is painted with the font that was asked for, whose file exists. -/
theorem font_of_drawsText {t : Task} (h : t.drawsText = true) {p : Painting.Piece}
    (hp : Painting.piece files fontPath t = .ok p) :
    ∃ path, fontPath = some path ∧ files.isFile path = true ∧ p.font = some path := by
  cases t with
  | text line layout =>
      have hline : line ≠ "" := by simpa [Task.drawsText] using h
      simp only [Painting.piece, Painting.textPiece, if_neg hline, bind, Except.bind] at hp
      split at hp
      · cases hp
      · next path hrequire =>
          split at hp
          · cases hp
          · cases hp
            obtain ⟨hpath, hfile⟩ := require_eq_ok_iff.mp hrequire
            exact ⟨path, hpath, hfile, rfl⟩
  | _ => cases h

theorem Grows.paint (h : Grows files fontPath c d) (ps : List Primitive) :
    Grows files fontPath c (d.paint ps) := h

/-- A canvas to which a piece is added grows by the font of the piece at most. -/
theorem Grows.of_add (c : Canvas) (piece : Painting.Piece) :
    Grows files piece.font c (c.add files piece).canvas := by
  rw [add]
  cases he : c.embed files piece.font with
  | error fault => exact Grows.refl c
  | ok d => exact (Grows.of_embed he).paint piece.primitives

/-- A canvas on which a task is carried out grows by the font that was asked for at most. -/
theorem Grows.of_perform (c : Canvas) (t : Task) :
    Grows files fontPath c (c.perform files fontPath t).canvas := by
  cases hdraws : t.drawsText with
  | false => exact Or.inl (fonts_perform_of_not_drawsText hdraws c)
  | true =>
      rw [perform]
      cases hp : Painting.piece files fontPath t with
      | error fault => exact Grows.refl c
      | ok p =>
          obtain ⟨path, rfl, -, hfont⟩ := font_of_drawsText hdraws hp
          have hadd := @Grows.of_add files c p
          rwa [hfont] at hadd

/-- A text that was painted has its family in the registry. -/
theorem mem_keys_of_perform {t : Task} (h : t.drawsText = true)
    (hf : (c.perform files fontPath t).fault = none) :
    Font.family fontPath ∈ Entries.keys (c.perform files fontPath t).canvas.registry := by
  rcases perform_cases files fontPath c t with ⟨fault, hfault⟩ | ⟨p, d, hp, he, hok⟩
  · rw [hfault] at hf
    cases hf
  · obtain ⟨path, rfl, hfile, hfont⟩ := font_of_drawsText h hp
    rw [hfont] at he
    rw [hok]
    change _ ∈ Entries.keys d.registry
    exact mem_keys_of_embed hfile he

/-- A plan takes in one font at most, however many texts it paints. -/
theorem Grows.of_performAll (c : Canvas) (p : Plan) :
    Grows files fontPath c (c.performAll files fontPath p).canvas := by
  induction p generalizing c with
  | nil => exact Grows.refl c
  | cons t rest ih =>
      cases hf : (c.perform files fontPath t).fault with
      | some fault =>
          rw [performAll_cons_of_fault hf]
          exact Grows.of_perform c t
      | none =>
          rw [canvas_performAll_cons hf]
          exact (Grows.of_perform c t).trans (ih _)

/-- The texts of a plan up to its first failure have their family in the registry. -/
theorem mem_keys_of_performed {p : Plan} {t : Task} (ht : t ∈ c.performed files fontPath p)
    (h : t.drawsText = true) :
    Font.family fontPath ∈ Entries.keys (c.performAll files fontPath p).canvas.registry := by
  induction p generalizing c with
  | nil => cases ht
  | cons u rest ih =>
      rw [performed] at ht
      cases hf : (c.perform files fontPath u).fault with
      | some fault =>
          rw [hf] at ht
          cases ht
      | none =>
          rw [hf] at ht
          rw [canvas_performAll_cons hf]
          rcases List.mem_cons.mp ht with rfl | hrest
          · exact (Grows.of_performAll _ rest).keys_subset (mem_keys_of_perform h hf)
          · exact ih hrest

end Canvas

end LabelPress
