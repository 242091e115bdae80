import LabelPress.Label.Conversion
import LabelPress.Proofs.Field.Bindings
import LabelPress.Proofs.Field.Declarations
import LabelPress.Proofs.Painting.Performed
import LabelPress.Proofs.Stream.Visits

/-!
# What a label shows of each field

A label that is painted to its end is divided into shares, one for each command and after them one
for each bound field. A bound field with a text and a layout shows in one role only: as its text, in
its own share, or as symbols, in the shares of the commands that draw them.
-/

namespace LabelPress

/-- Whether a symbol is drawn for a field: one stands right before a declaration of it, separators
between them apart. -/
def Command.HasSymbol (cs : List Command) (n : Int) : Prop :=
  ∃ before height flag k after, cs = before ++
    .code128 height flag :: (List.replicate k .fieldSeparator ++ .fieldNumber n :: after)

namespace Painting

/-- The primitives of a task, none if there is no task. -/
def share (files : Files.Tree) (fontPath : Option String) (t : Option Task) : List Primitive :=
  t.toList.flatMap (primitivesOf files fontPath)

end Painting

namespace Label

open Plan Painting LabelPress.Barcode

variable {files : Files.Tree} {fontPath : Option String} {c : Canvas} {cs : List Command}

/-- What each command of a stream shows, with the field that it draws a symbol for. -/
def streamShares (files : Files.Tree) (fontPath : Option String) (cs : List Command) :
    List (Option Int × List Primitive) :=
  (visits .initial cs).map fun v =>
    (v.symbolField?, share files fontPath (v.task? (FieldData.ofCommands cs)))

/-- What each bound field shows as its text. -/
def fieldShares (files : Files.Tree) (fontPath : Option String) (cs : List Command) :
    List (Int × List Primitive) :=
  (FieldData.ofCommands cs).map fun f =>
    (f.1, share files fontPath
      (fieldTask? (FieldLayouts.ofCommands .initial cs) (symbolFields cs) f))

/-- How a field with a text and a layout shows: by its text alone, or by its symbols alone. -/
structure ShowsInOneRole (files : Files.Tree) (fontPath : Option String) (cs : List Command)
    (n : Int) (text : String) (layout : Layout) : Prop where
  asText : ¬ Command.HasSymbol cs n →
    (∀ s ∈ streamShares files fontPath cs, s.1 ≠ some n) ∧
    ∃ path shown, Font.require files fontPath = .ok path ∧
      textPrimitives text layout path = .ok shown ∧
      (fieldShares files fontPath cs).filter (fun s => s.1 = n) = [(n, shown)]
  asSymbols : Command.HasSymbol cs n →
    (fieldShares files fontPath cs).filter (fun s => s.1 = n) = [(n, [])] ∧
    0 < (symbolFields cs).count n ∧
    ((streamShares files fontPath cs).filter fun s => s.1 = some n).length =
      (symbolFields cs).count n ∧
    ∀ s ∈ streamShares files fontPath cs, s.1 = some n →
      ∃ (symbol : Symbol) (x y drawn : Int), symbol.data = text ∧
        drawnWidth symbol.moduleWidth = .ok drawn ∧ s.2 = symbol.primitives drawn x y

/-! ## The division -/

theorem flatMap_filterMap_share {α : Type} (f : α → Option Task) (xs : List α) :
    (xs.filterMap f).flatMap (primitivesOf files fontPath) =
      xs.flatMap fun a => share files fontPath (f a) := by
  rw [List.filterMap_eq_flatMap_toList, List.flatMap_assoc]
  rfl

/-- The shares of the commands and then those of the fields are all that is painted. -/
theorem primitives_paint_eq_shares (h : (paint files fontPath c cs).fault = none) :
    (paint files fontPath c cs).canvas.primitives =
      c.primitives ++ (streamShares files fontPath cs).flatMap Prod.snd ++
        (fieldShares files fontPath cs).flatMap Prod.snd := by
  have hall : c.performed files fontPath (plan .initial cs) = plan .initial cs :=
    (Canvas.performed_eq_self_iff c _).mpr h
  have hstream : (ofCommands (FieldData.ofCommands cs) .initial cs).flatMap
      (primitivesOf files fontPath) = (streamShares files fontPath cs).flatMap Prod.snd := by
    rw [ofCommands_eq_filterMap, flatMap_filterMap_share, streamShares, List.flatMap_map]
  have hfields : (ofFields (FieldData.ofCommands cs) (FieldLayouts.ofCommands .initial cs)
      (symbolFields cs)).flatMap (primitivesOf files fontPath) =
        (fieldShares files fontPath cs).flatMap Prod.snd := by
    rw [ofFields, flatMap_filterMap_share, fieldShares, List.flatMap_map]
  rw [paint, Canvas.primitives_performAll, hall, plan, List.flatMap_append, hstream, hfields,
    List.append_assoc]

/-- The fields have their shares in the order in which they were first bound. -/
theorem numbers_fieldShares (files : Files.Tree) (fontPath : Option String)
    (cs : List Command) :
    (fieldShares files fontPath cs).map Prod.fst =
      ((FieldData.bindings none cs).map Prod.fst).eraseDups := by
  have hkeys : (fieldShares files fontPath cs).map Prod.fst =
      Entries.keys (FieldData.ofCommands cs) := by
    rw [fieldShares, List.map_map]
    rfl
  rw [hkeys, FieldData.ofCommands, Entries.keys_putAll]
  rfl

/-- A bound field has one share, which its task comes to. -/
theorem filter_fieldShares {n : Int} {text : String}
    (h : Entries.get? n (FieldData.ofCommands cs) = some text) :
    (fieldShares files fontPath cs).filter (fun s => s.1 = n) =
      [(n, share files fontPath
        (fieldTask? (FieldLayouts.ofCommands .initial cs) (symbolFields cs) (n, text)))] := by
  have hone := Entries.filter_key_eq_singleton (FieldData.nodup_keys_ofCommands cs) h
  rw [fieldShares, List.filter_map]
  change List.map _ ((FieldData.ofCommands cs).filter fun f => f.1 = n) = _
  rw [hone]
  rfl

/-! ## The share of a field -/

/-- A field without a text or without a layout shows nothing. -/
theorem share_fieldTask?_eq_nil {layouts : FieldLayouts} {n : Int} {text : String}
    (h : text = "" ∨ Entries.get? n layouts = none) (drawn : List Int) :
    share files fontPath (fieldTask? layouts drawn (n, text)) = [] := by
  by_cases ht : text = ""
  · simp [fieldTask?, ht, share]
  · have hl : Entries.get? n layouts = none := h.resolve_left ht
    simp [fieldTask?, ht, hl, share, primitivesOf, piece, note]

/-- A field that symbols are drawn for shows no text. -/
theorem share_fieldTask?_of_drawn {layouts : FieldLayouts} {drawn : List Int} {n : Int}
    (h : n ∈ drawn) (text : String) :
    share files fontPath (fieldTask? layouts drawn (n, text)) = [] := by
  cases hl : Entries.get? n layouts with
  | none => exact share_fieldTask?_eq_nil (Or.inr hl) drawn
  | some layout => simp [fieldTask?, hl, h, share]

theorem fieldTask?_of_not_drawn {layouts : FieldLayouts} {drawn : List Int} {n : Int}
    {text : String} {layout : Layout} (ht : text ≠ "")
    (hl : Entries.get? n layouts = some layout) (h : n ∉ drawn) :
    fieldTask? layouts drawn (n, text) = some (.text text layout) := by
  simp [fieldTask?, ht, hl, h]

/-- A text that is painted has a font, and shows what its layout makes of it. -/
theorem share_text {text : String} {layout : Layout} (ht : text ≠ "") {p : Piece}
    (hp : piece files fontPath (.text text layout) = .ok p) :
    ∃ path, Font.require files fontPath = .ok path ∧
      textPrimitives text layout path =
        .ok (share files fontPath (some (.text text layout))) := by
  have hshare : share files fontPath (some (.text text layout)) = p.primitives := by
    simp [share, primitivesOf, hp]
  simp only [piece, textPiece, if_neg ht] at hp
  cases hr : Font.require files fontPath with
  | error fault => simp [hr, bind, Except.bind] at hp
  | ok path =>
      cases hs : textPrimitives text layout path with
      | error fault => simp [hr, hs, bind, Except.bind] at hp
      | ok shown =>
          simp only [hr, hs, bind, Except.bind, pure, Except.pure, Except.ok.injEq] at hp
          subst hp
          exact ⟨path, rfl, by rw [hshare, hs]⟩

/-! ## The shares of symbols -/

/-- A visit that draws for a field with a text draws a symbol of that text. -/
theorem task?_of_symbolField? {v : Visit} {n : Int} (hv : v.symbolField? = some n)
    {data : FieldData} {text : String} (hd : Entries.get? n data = some text) :
    ∃ (symbol : Symbol) (x y : Int), symbol.data = text ∧
      v.task? data = some (.symbol symbol x y) := by
  obtain ⟨before, s, command, after⟩ := v
  cases command with
  | code128 height flag =>
      have hn : Command.nextField? after = some n := hv
      let t := advance before s (.code128 height flag)
      refine ⟨⟨text, t.moduleWidth, t.symbolHeight, t.symbolFlag⟩, t.x, t.y, rfl, ?_⟩
      simp [Visit.task?, task?, symbolTask, hn, hd, t]
  | _ => cases hv

theorem share_symbol {s : Symbol} {x y : Int} {p : Piece}
    (hp : piece files fontPath (.symbol s x y) = .ok p) :
    ∃ drawn, drawnWidth s.moduleWidth = .ok drawn ∧
      share files fontPath (some (.symbol s x y)) = s.primitives drawn x y := by
  have hshare : share files fontPath (some (.symbol s x y)) = p.primitives := by
    simp [share, primitivesOf, hp]
  simp only [piece, symbolPiece] at hp
  cases hw : drawnWidth s.moduleWidth with
  | error fault => simp [hw, bind, Except.bind] at hp
  | ok drawn =>
      simp only [hw, bind, Except.bind, pure, Except.pure, Except.ok.injEq] at hp
      subst hp
      exact ⟨drawn, rfl, hshare⟩

/-- The commands that draw for a field are as many as the symbols drawn for it. -/
theorem length_filter_streamShares (files : Files.Tree) (fontPath : Option String)
    (cs : List Command) (n : Int) :
    ((streamShares files fontPath cs).filter fun s => s.1 = some n).length =
      (symbolFields cs).count n := by
  rw [symbolFields_eq_filterMap [] .initial cs, List.count_eq_countP, List.countP_filterMap,
    List.countP_eq_length_filter, streamShares, List.filter_map, List.length_map]
  congr 1
  apply List.filter_congr
  intro v _
  cases hv : v.symbolField? <;> simp [hv, beq_eq_decide]

theorem mem_symbolFields_of_streamShares {s : Option Int × List Primitive} {n : Int}
    (hs : s ∈ streamShares files fontPath cs) (hn : s.1 = some n) : n ∈ symbolFields cs := by
  have hmem : s ∈ (streamShares files fontPath cs).filter fun s => s.1 = some n :=
    List.mem_filter.mpr ⟨hs, decide_eq_true hn⟩
  have hlen := List.length_pos_of_mem hmem
  rw [length_filter_streamShares] at hlen
  exact List.count_pos_iff.mp hlen

/-! ## Roles -/

theorem hasSymbol_iff {n : Int} : Command.HasSymbol cs n ↔ n ∈ symbolFields cs :=
  mem_symbolFields_iff.symm

/-- The piece of what a visit asks for. -/
theorem piece_of_visit (h : (paint files fontPath c cs).fault = none) {v : Visit}
    (hv : v ∈ visits .initial cs) {t : Task} (ht : v.task? (FieldData.ofCommands cs) = some t) :
    ∃ p, piece files fontPath t = .ok p := by
  apply Canvas.piece_of_performAll h
  apply List.mem_append_left
  rw [ofCommands_eq_filterMap]
  exact List.mem_filterMap.mpr ⟨v, hv, ht⟩

/-- The piece of what a bound field asks for. -/
theorem piece_of_field (h : (paint files fontPath c cs).fault = none) {n : Int} {text : String}
    (hd : Entries.get? n (FieldData.ofCommands cs) = some text) {t : Task}
    (ht : fieldTask? (FieldLayouts.ofCommands .initial cs) (symbolFields cs) (n, text) = some t) :
    ∃ p, piece files fontPath t = .ok p := by
  apply Canvas.piece_of_performAll h
  apply List.mem_append_right
  have hmem := (Entries.mem_iff_get? (FieldData.nodup_keys_ofCommands cs)).mpr hd
  exact List.mem_filterMap.mpr ⟨(n, text), hmem, ht⟩

/-- A field with a text and a layout shows in one role. -/
theorem showsInOneRole (h : (paint files fontPath c cs).fault = none) {n : Int} {text : String}
    {layout : Layout} (hd : Entries.get? n (FieldData.ofCommands cs) = some text)
    (hl : Entries.get? n (FieldLayouts.ofCommands .initial cs) = some layout) (ht : text ≠ "") :
    ShowsInOneRole files fontPath cs n text layout := by
  constructor
  · intro hno
    have hn : n ∉ symbolFields cs := fun hm => hno (hasSymbol_iff.mpr hm)
    have htask := fieldTask?_of_not_drawn ht hl hn
    obtain ⟨p, hp⟩ := piece_of_field h hd htask
    obtain ⟨path, hfont, hshown⟩ := share_text ht hp
    refine ⟨fun s hs hsn => hn (mem_symbolFields_of_streamShares hs hsn), path, _, hfont, hshown,
      ?_⟩
    rw [filter_fieldShares hd, htask]
  · intro hsymbol
    have hn : n ∈ symbolFields cs := hasSymbol_iff.mp hsymbol
    refine ⟨?_, List.count_pos_iff.mpr hn, length_filter_streamShares files fontPath cs n, ?_⟩
    · rw [filter_fieldShares hd, share_fieldTask?_of_drawn hn]
    · intro s hs hsn
      obtain ⟨v, hv, rfl⟩ := List.mem_map.mp hs
      obtain ⟨symbol, x, y, hdata, htask⟩ := task?_of_symbolField? hsn hd
      obtain ⟨p, hp⟩ := piece_of_visit h hv htask
      obtain ⟨drawn, hwidth, hshare⟩ := share_symbol hp
      exact ⟨symbol, x, y, drawn, hdata, hwidth, by simp only [htask, hshare]⟩

/-- A label that is painted to its end is the shares of its commands and then, in the order in which
they were first bound, those of its fields. A bound field without a text or a declaration in the
template shows nothing as a field, and one with both shows in one role. -/
theorem paint_shares (h : (paint files fontPath c cs).fault = none) :
    (paint files fontPath c cs).canvas.primitives =
        c.primitives ++ (streamShares files fontPath cs).flatMap Prod.snd ++
          (fieldShares files fontPath cs).flatMap Prod.snd ∧
      (fieldShares files fontPath cs).map Prod.fst =
        ((FieldData.bindings none cs).map Prod.fst).eraseDups ∧
      (∀ n text, FieldData.LastBinding cs n text →
        text = "" ∨ .fieldNumber n ∉ Command.template cs →
          (fieldShares files fontPath cs).filter (fun s => s.1 = n) = [(n, [])]) ∧
      ∀ n text, FieldData.LastBinding cs n text →
        text ≠ "" → .fieldNumber n ∈ Command.template cs →
          ∃ layout, FieldLayouts.FirstDeclaration .initial cs n layout ∧
            ShowsInOneRole files fontPath cs n text layout := by
  refine ⟨primitives_paint_eq_shares h, numbers_fieldShares files fontPath cs, ?_, ?_⟩
  · intro n text hlast hnone
    have hd := FieldData.get?_ofCommands_eq_some_iff.mpr hlast
    rw [filter_fieldShares hd, share_fieldTask?_eq_nil]
    exact hnone.imp_right FieldLayouts.get?_ofCommands_eq_none_iff.mpr
  · intro n text hlast ht hdeclared
    obtain ⟨layout, hfirst⟩ := FieldLayouts.exists_firstDeclaration hdeclared
    exact ⟨layout, hfirst, showsInOneRole h (FieldData.get?_ofCommands_eq_some_iff.mpr hlast)
      (FieldLayouts.get?_ofCommands_of_first hfirst) ht⟩

/-- A label of a reversed text field and a field that is drawn as a symbol. -/
def fieldAndSymbol : List Command :=
  [.fieldReverse, .fieldOrigin 5 5, .fieldNumber 1, .fieldSeparator, .code128 40 "Y",
    .fieldNumber 2, .fieldData "AB", .fieldSeparator, .fieldNumber 1, .fieldData "Ham"]

theorem paint_shares_fieldAndSymbol :
    (paint .oneFont (some "f") .small fieldAndSymbol).fault = none ∧
    ((fieldShares .oneFont (some "f") fieldAndSymbol).map Prod.fst = [2, 1] ∧
      ∃ layout, FieldLayouts.FirstDeclaration .initial fieldAndSymbol 1 layout ∧
        ShowsInOneRole .oneFont (some "f") fieldAndSymbol 1 "Ham" layout) := by
  have hfault : (paint .oneFont (some "f") .small fieldAndSymbol).fault = none := by
    decide +kernel
  have hlast : FieldData.LastBinding fieldAndSymbol 1 "Ham" :=
    FieldData.get?_ofCommands_eq_some_iff.mp (by decide +kernel)
  obtain ⟨-, horder, -, hrole⟩ := paint_shares hfault
  exact ⟨hfault, horder, hrole 1 "Ham" hlast (by decide) (by decide)⟩

end Label

end LabelPress
