import LabelPress.Proofs.Barcode.Geometry
import LabelPress.Proofs.Field.BoundTexts
import LabelPress.Proofs.Label.Completion
import LabelPress.Proofs.Label.Payloads
import LabelPress.Proofs.Painting.Failures
import LabelPress.Proofs.Svg.WellFormed

/-!
# Documents of labels are well-formed

A document differs from a well-formed one by forbidden characters at most, and these come from the
texts that are painted: texts of their own, texts of fields, and payloads under symbols. Reading a
markup trims its texts but takes no other character out of them.
-/

namespace LabelPress

open LabelPress.Xml

/-- The text that a task paints. -/
def Task.text? : Task → Option String
  | .text line _ => some line
  | .symbol s _ _ => if s.hasCaption then some s.data else none
  | _ => none

/-- The texts that a plan paints. -/
def Plan.texts (p : Plan) : List String := p.filterMap Task.text?

/-! ## Where the texts of a label come from -/

namespace Command

/-- The text of a command has the characters of the command's body only. -/
theorem subset_of_ofBody {body : List Char} {text : String}
    (h : ofBody body = .ok (.fieldData text)) : text.toList ⊆ body := by
  rcases hasShape_of_ofBody h with ⟨s, hs, -, hcommand⟩ | ⟨-, hcommand⟩
  · cases hs with
    | fieldData htrimmed =>
        obtain ⟨before, after, -, -, rfl⟩ := htrimmed.surrounded
        rw [Shape.command, fieldData.injEq] at hcommand
        rw [hcommand, String.toList_ofList]
        intro c hc
        exact .tail _ (.tail _ (List.mem_append_left _ (List.mem_append_right _ hc)))
    | _ => cases hcommand
  · cases hcommand

/-- The texts of a markup have the characters of the markup only. -/
theorem subset_of_ofMarkup {markup : String} {cs : List Command} (h : ofMarkup markup = .ok cs)
    {text : String} (htext : .fieldData text ∈ cs) : text.toList ⊆ markup.toList := by
  obtain ⟨body, hbody, hread⟩ := exists_of_mem_mapM h htext
  rw [bodies, List.mem_filter] at hbody
  exact List.Subset.trans (subset_of_ofBody hread) (Text.subset_of_mem_splitOn hbody.1)

end Command

namespace Label

open Plan

theorem mem_of_get?_data {cs : List Command} {n : Int} {text : String}
    (h : Entries.get? n (FieldData.ofCommands cs) = some text) : .fieldData text ∈ cs := by
  obtain ⟨j, ⟨i, -, -, hc, -⟩, -⟩ := FieldData.get?_ofCommands_eq_some_iff_last.mp h
  exact List.mem_of_getElem? hc

theorem data_of_task?_eq_symbol {data : FieldData} {before after : List Command} {s : DrawingState}
    {c : Command} {symbol : Barcode.Symbol} {x y : Int}
    (h : task? data before after s c = some (.symbol symbol x y)) :
    ∃ n, data.get? n = some symbol.data := by
  cases c with
  | code128 height flag =>
      simp only [task?, symbolTask, Option.some.injEq] at h
      split at h
      · cases h
      · split at h
        · cases h
        · next n _ _ hdata =>
            cases h
            exact ⟨_, hdata⟩
  | _ => simp [task?] at h

/-- A text that is painted for a stream is that of one of its commands. -/
theorem mem_of_mem_texts_plan {cs : List Command} {text : String}
    (h : text ∈ Plan.texts (plan .initial cs)) : .fieldData text ∈ cs := by
  obtain ⟨t, ht, htext⟩ := List.mem_filterMap.mp h
  rcases List.mem_append.mp ht with ht | ht
  · rw [ofCommands_eq_filterMap_range] at ht
    obtain ⟨j, -, hj⟩ := List.mem_filterMap.mp ht
    cases t with
    | text line layout =>
        cases htext
        exact List.mem_of_getElem? (paintedAt_iff.mp ⟨layout, hj⟩).1
    | symbol s x y =>
        simp only [Task.text?] at htext
        split at htext
        · cases htext
          obtain ⟨v, -, hv⟩ := Option.bind_eq_some_iff.mp hj
          obtain ⟨n, hn⟩ := data_of_task?_eq_symbol hv
          exact mem_of_get?_data hn
        · cases htext
    | _ => cases htext
  · obtain ⟨⟨n, line⟩, hmem, hfield⟩ := List.mem_filterMap.mp ht
    have hget := (Entries.mem_iff_get? (FieldData.nodup_keys_ofCommands cs)).mp hmem
    simp only [fieldTask?] at hfield
    split at hfield
    · cases hfield
    · split at hfield
      · cases hfield
        cases htext
      · split at hfield
        · cases hfield
        · cases hfield
          cases htext
          exact mem_of_get?_data hget

/-! ## What is painted -/

theorem permitted_family (path : Option String) : Permitted (Font.family path).toList :=
  Svg.permitted_of_isPlain (Svg.isPlain_of_mem_family path)

theorem permitted_boxRect (x y : Int) (b : Box) (reverse : Bool) :
    Permitted (Primitive.rect (Painting.boxRect x y b reverse)).node.write := by
  unfold Painting.boxRect
  split <;> exact Svg.permitted_rect (Svg.permitted_color _) (Svg.permitted_color _)

theorem permitted_bars (s : Barcode.Symbol) (drawn x y : Int) :
    ∀ p ∈ (s.bars drawn x y).map Primitive.rect, Permitted p.node.write := by
  intro p hp
  obtain ⟨r, hr, rfl⟩ := List.mem_map.mp hp
  rw [Barcode.Symbol.bars_eq] at hr
  obtain ⟨i, -, rfl⟩ := List.mem_map.mp hr
  exact Svg.permitted_rect (Svg.permitted_color .black) (Svg.permitted_color .none)

theorem permitted_textLine_iff (line : String) (layout : Layout) (size : Int) (path : String) :
    Permitted (Primitive.text (Brush.textLine line layout size path)).node.write ↔
      Permitted line.toList :=
  Svg.permitted_text_iff (Svg.permitted_color _) (permitted_family _)
    (by decide : Permitted "normal".toList) permitted_nil

theorem permitted_caption_iff {s : Barcode.Symbol} {drawn x y : Int} {payload : TextLine}
    (h : s.caption drawn x y = some payload) :
    s.hasCaption = true ∧
      (Permitted (Primitive.text payload).node.write ↔ Permitted s.data.toList) := by
  rw [Barcode.Symbol.caption] at h
  split at h
  · next hcaption =>
      cases h
      exact ⟨hcaption, Svg.permitted_text_iff (Svg.permitted_color .black)
        (by decide : Permitted "Arial, sans-serif".toList)
        (by decide : Permitted "normal".toList) (by decide : Permitted "middle".toList)⟩
  · cases h

/-- A complete item shows permitted characters exactly if its text is made of them. -/
theorem permitted_complete_iff {fontPath : Option String} {t : Task} {ps : List Primitive}
    (h : Complete fontPath t ps) :
    (∀ p ∈ ps, Permitted p.node.write) ↔ ∀ text ∈ t.text?, Permitted text.toList := by
  cases h with
  | box x y b reverse =>
      rw [List.forall_mem_singleton]
      exact iff_of_true (permitted_boxRect x y b reverse) nofun
  | emptyText layout => simp [Task.text?]
  | text hline hpath hreverse hsize =>
      simp [Task.text?, permitted_textLine_iff]
  | @reversedText line layout path size width hline hpath hreverse hsize hwidth =>
      have hground : Permitted (Primitive.rect (Brush.groundRect layout width)).node.write :=
        Svg.permitted_rect (Svg.permitted_color .black) (Svg.permitted_color .none)
      simp [Task.text?, permitted_textLine_iff, hground]
  | bars x y hdrawn hcaption =>
      simp only [Task.text?, hcaption]
      exact iff_of_true (permitted_bars _ _ _ _) nofun
  | barsAndCaption hdrawn hcaption =>
      obtain ⟨hflag, htext⟩ := permitted_caption_iff hcaption
      rw [List.forall_mem_append, and_iff_right (permitted_bars _ _ _ _),
        List.forall_mem_singleton, htext]
      simp [Task.text?, hflag]
  | note hnote =>
      cases t with
      | box | text | symbol => cases hnote
      | _ => simp [Task.text?]

/-- A plan that is carried out to its end shows permitted characters exactly if its texts are made
of them. -/
theorem permitted_performAll_iff {files : Files.Tree} {fontPath : Option String} {c : Canvas}
    {p : Plan} (hempty : c.primitives = []) (h : (c.performAll files fontPath p).fault = none) :
    (∀ q ∈ (c.performAll files fontPath p).canvas.primitives, Permitted q.node.write) ↔
      ∀ text ∈ p.texts, Permitted text.toList := by
  have htask : ∀ t ∈ p, ((∀ q ∈ Painting.primitivesOf files fontPath t, Permitted q.node.write) ↔
      ∀ text ∈ t.text?, Permitted text.toList) := by
    intro t ht
    obtain ⟨piece, hpiece⟩ := Canvas.piece_of_performAll h ht
    rw [Painting.primitivesOf, hpiece]
    exact permitted_complete_iff (complete_of_piece hpiece)
  rw [Canvas.primitives_performAll, hempty, List.nil_append,
    (Canvas.performed_eq_self_iff c p).mpr h, List.forall_mem_flatMap, Plan.texts,
    List.forall_mem_filterMap]
  exact forall₂_congr htask

/-! ## Documents -/

/-- The document of a label is well-formed exactly if all texts that are painted for its commands
are made of permitted characters, and so if its markup is. Whatever the label, forbidden characters
are all that is wrong: without them its document is well-formed. -/
theorem wellFormed_convert_iff {site : Font.Site} {r : LabelSource} {document : String}
    (h : (convert site r).result = .ok document) :
    ∃ cs, Command.ofMarkup r.markup = .ok cs ∧
      (WellFormed document ↔ ∀ text ∈ Plan.texts (plan .initial cs), Permitted text.toList) ∧
      (Permitted r.markup.toList → WellFormed document) ∧
      WellFormed (String.ofList (kept document.toList)) := by
  obtain ⟨d, hd, hrender⟩ := exists_build_of_convert h
  obtain ⟨cs, fontPath, c, hread, -, hempty, hfault, rfl⟩ := exists_paint_of_build hd
  have hiff : WellFormed document ↔
      ∀ text ∈ Plan.texts (plan .initial cs), Permitted text.toList := by
    rw [Svg.wellFormed_render_iff hrender, Svg.permitted_render_iff hrender]
    exact permitted_performAll_iff hempty hfault
  refine ⟨cs, hread, hiff, fun hmarkup => ?_, Svg.wellFormed_kept_render hrender⟩
  refine hiff.mpr fun text htext c hc => hmarkup c ?_
  exact Command.subset_of_ofMarkup hread (mem_of_mem_texts_plan htext) hc

/-- A label of a symbol with a payload under it that spells markup. -/
def markupPayload : LabelSource :=
  { LabelSource.small with markup := "^BC,4^FN1^FDA</text>&" }

theorem wellFormed_convert_iff_markupPayload :
    ∃ document, (convert .small markupPayload).result = .ok document ∧ WellFormed document := by
  have hconverts : (convert .small markupPayload).result.isOk = true := by decide +kernel
  cases hdocument : (convert .small markupPayload).result with
  | error fault =>
      rw [hdocument] at hconverts
      cases hconverts
  | ok document =>
      obtain ⟨cs, -, -, hpermitted, -⟩ := wellFormed_convert_iff hdocument
      exact ⟨document, rfl, hpermitted (by decide)⟩

/-- A label of a symbol with a control character in its payload. -/
def controlPayload : LabelSource := { LabelSource.small with markup := "^BC,4^FN1^FDA\x01B" }

theorem not_wellFormed_convert_controlPayload :
    ∃ document, (convert .small controlPayload).result = .ok document ∧ ¬ WellFormed document := by
  have hconverts : (convert .small controlPayload).result.isOk = true := by decide +kernel
  have hshown : ((build .small controlPayload).result.toOption.bind fun c =>
      c.primitives.getLast?.map fun p => decide (Permitted p.node.write)) = some false := by
    decide +kernel
  cases hdocument : (convert .small controlPayload).result with
  | error fault =>
      rw [hdocument] at hconverts
      cases hconverts
  | ok document =>
      obtain ⟨c, hc, hrender⟩ := exists_build_of_convert hdocument
      rw [hc] at hshown
      obtain ⟨p, hp, hforbidden⟩ := Option.map_eq_some_iff.mp hshown
      refine ⟨document, rfl, ?_⟩
      rw [Svg.wellFormed_render_iff hrender, Svg.permitted_render_iff hrender]
      intro hall
      exact of_decide_eq_false hforbidden (hall p (List.mem_of_getLast? hp))

end Label

end LabelPress
