import LabelPress.Proofs.Label.FieldShares
import LabelPress.Proofs.Stream.Standing

/-!
# What each command paints

The scan that paints adds to the canvas what each place of the stream shows, one place after the
other. A box shows its rectangle, a text of its own its line, and a symbol whose field has data its
bars; everything else shows nothing. What stands at the place is said by the places before it.
-/

namespace LabelPress

open Command Scan Painting LabelPress.Barcode

namespace Plan

variable {cs : List Command} {n : Int} {i k : Nat} {text : String} {c : Command}

/-- A text at a place is painted on its own: it is not empty, and no field is declared at the few
places before it. -/
def OwnTextAt (cs : List Command) (i : Nat) (text : String) : Prop :=
  cs[i]? = some (.fieldData text) ∧ text ≠ "" ∧
    ∀ k n, k < i → i ≤ k + lookback → cs[k]? ≠ some (.fieldNumber n)

/-- The symbol at a place is for a field: the next declaration is the field's, and only separators
stand before it. -/
def SymbolAt (cs : List Command) (i : Nat) (height : Int) (flag : String) (n : Int) : Prop :=
  cs[i]? = some (.code128 height flag) ∧
    ∃ j, i < j ∧ cs[j]? = some (.fieldNumber n) ∧
      ∀ k, i < k → k < j → cs[k]? = some .fieldSeparator

/-- A reversal ends at a place: a new origin or a separator drops it, and a box or a text that is
painted uses it up. -/
def EndsReversal (cs : List Command) (k : Nat) : Prop :=
  (∃ x y, cs[k]? = some (.fieldOrigin x y)) ∨ cs[k]? = some .fieldSeparator ∨
    (∃ box, cs[k]? = some (.graphicBox box)) ∨ ∃ text, OwnTextAt cs k text

/-- What a place of a stream shows, by what stands there. -/
structure ShowsAt (files : Files.Tree) (fontPath : Option String) (data : FieldData)
    (start : DrawingState) (cs : List Command) (i : Nat) (shown : List Primitive) : Prop where
  box : ∀ box, cs[i]? = some (.graphicBox box) →
    ∃ layout, LaidAt (EndsReversal cs) start.toLayout cs i layout ∧
      shown = [.rect (boxRect layout.x layout.y box layout.reverse)]
  ownText : ∀ text, OwnTextAt cs i text →
    ∃ layout path, LaidAt (EndsReversal cs) start.toLayout cs i layout ∧
      Font.require files fontPath = .ok path ∧ textPrimitives text layout path = .ok shown
  symbol : ∀ height flag n text, SymbolAt cs i height flag n → data.get? n = some text →
    ∃ layout moduleWidth drawn, LaidAt (EndsReversal cs) start.toLayout cs i layout ∧
      SetAt moduleWidth? start.moduleWidth cs i moduleWidth ∧
      drawnWidth moduleWidth = .ok drawn ∧
      shown = Symbol.primitives ⟨text, moduleWidth, height, flag⟩ drawn layout.x layout.y
  nothing : (∀ box, cs[i]? ≠ some (.graphicBox box)) → (∀ text, ¬ OwnTextAt cs i text) →
    (∀ height flag n, SymbolAt cs i height flag n → data.get? n = none) → shown = []

/-! ## One place by those around it -/

/-- The last commands before a place are those at the last places before it. -/
theorem mem_drop_take_iff {window : Nat} :
    c ∈ (cs.take i).drop (i - window) ↔ ∃ k, k < i ∧ i ≤ k + window ∧ cs[k]? = some c := by
  simp only [List.mem_iff_getElem?, List.getElem?_drop, List.getElem?_take]
  constructor
  · rintro ⟨q, hq⟩
    split at hq
    · next hlt => exact ⟨i - window + q, hlt, by omega, hq⟩
    · cases hq
  · rintro ⟨k, hk, hwindow, hc⟩
    have hplace : i - window + (k - (i - window)) = k := by omega
    exact ⟨k - (i - window), by rw [hplace, if_pos hk, hc]⟩

theorem declaredWithin_take_reverse {window : Nat} (hi : i ≤ cs.length) :
    declaredWithin window (cs.take i).reverse = false ↔
      ∀ k n, k < i → i ≤ k + window → cs[k]? ≠ some (.fieldNumber n) := by
  rw [declaredWithin, List.any_eq_false, List.take_reverse, List.length_take_of_le hi]
  simp only [List.mem_reverse, mem_drop_take_iff]
  constructor
  · intro h k n hk hwindow hc
    exact h _ ⟨k, hk, hwindow, hc⟩ rfl
  · rintro h d ⟨k, hk, hwindow, hd⟩ hdeclares
    obtain ⟨n, hn⟩ := Option.isSome_iff_exists.mp hdeclares
    rw [declares?_eq_some_iff] at hn
    exact h k n hk hwindow (hn ▸ hd)

theorem ownTextAt_iff (hc : cs[i]? = some c) :
    OwnTextAt cs i text ↔ ownText? (cs.take i).reverse c = some text := by
  obtain ⟨hi, -⟩ := List.getElem?_eq_some_iff.mp hc
  rw [OwnTextAt, ownText?_eq_some_iff, declaredWithin_take_reverse (Nat.le_of_lt hi), hc,
    Option.some.injEq]

theorem endsReversal_iff (hc : cs[k]? = some c) :
    EndsReversal cs k ↔ DrawingState.ResetRules.painting.resets c = true ∨
      (ownText? (cs.take k).reverse c).isSome = true := by
  simp only [EndsReversal, ownTextAt_iff hc, Option.isSome_iff_exists]
  rw [hc]
  cases c <;> simp [DrawingState.ResetRules.resets, DrawingState.ResetRules.painting, ownText?]

/-- A field follows a place exactly if its declaration comes next, separators apart. -/
theorem nextField?_eq_some_iff_place {after : List Command} :
    nextField? after = some n ↔ ∃ j : Nat, after[j]? = some (Command.fieldNumber n) ∧
      ∀ k < j, after[k]? = some Command.fieldSeparator := by
  induction after with
  | nil => simp [nextField?]
  | cons c rest ih =>
      cases c with
      | fieldNumber m =>
          rw [nextField?, Option.some.injEq]
          constructor
          · rintro rfl
            exact ⟨0, rfl, fun k hk => absurd hk (Nat.not_lt_zero k)⟩
          · rintro ⟨j, hj, hbefore⟩
            cases j with
            | zero => exact Command.fieldNumber.inj (Option.some.inj hj)
            | succ j => cases hbefore 0 (Nat.succ_pos j)
      | fieldSeparator =>
          rw [nextField?, ih]
          constructor
          · rintro ⟨j, hj, hbefore⟩
            exact ⟨j + 1, hj, Nat.forall_lt_succ_left.mpr ⟨rfl, hbefore⟩⟩
          · rintro ⟨j, hj, hbefore⟩
            cases j with
            | zero => cases hj
            | succ j => exact ⟨j, hj, (Nat.forall_lt_succ_left.mp hbefore).2⟩
      | _ =>
          constructor
          · intro h
            cases h
          · rintro ⟨j, hj, hbefore⟩
            cases j with
            | zero => cases hj
            | succ j => cases hbefore 0 (Nat.succ_pos j)

theorem symbolAt_iff {height : Int} {flag : String} :
    SymbolAt cs i height flag n ↔
      cs[i]? = some (.code128 height flag) ∧ nextField? (cs.drop (i + 1)) = some n := by
  rw [SymbolAt, nextField?_eq_some_iff_place]
  simp only [List.getElem?_drop]
  refine and_congr_right fun _ => ⟨?_, ?_⟩
  · rintro ⟨j, hij, hj, hbetween⟩
    have hplace : i + 1 + (j - (i + 1)) = j := by omega
    exact ⟨j - (i + 1), by rw [hplace, hj], fun k hk => hbetween _ (by omega) (by omega)⟩
  · rintro ⟨j, hj, hbefore⟩
    refine ⟨i + 1 + j, by omega, hj, fun k hik hkj => ?_⟩
    have hplace : i + 1 + (k - (i + 1)) = k := by omega
    rw [← hplace]
    exact hbefore _ (by omega)

/-! ## The state at a place -/

/-- The state of the painting scan at a place. -/
def stateAt (start : DrawingState) (cs : List Command) (i : Nat) : DrawingState :=
  stateFrom [] start (cs.take i)

theorem stateAt_succ {start : DrawingState} (hc : cs[i]? = some c) :
    stateAt start cs (i + 1) = advance (cs.take i).reverse (stateAt start cs i) c := by
  obtain ⟨hi, rfl⟩ := List.getElem?_eq_some_iff.mp hc
  rw [stateAt, List.take_succ_eq_append_getElem hi, stateFrom_append, List.append_nil, stateAt]
  rfl

/-- While items are painted a command moves the layout on by its rules, and a text that is painted
ends a reversal as well. -/
theorem moves_advance (before : List Command) (s : DrawingState) (c : Command) :
    Moves c (DrawingState.ResetRules.painting.resets c = true ∨
      (ownText? before c).isSome = true) s.toLayout (advance before s c).toLayout := by
  cases hown : ownText? before c with
  | none =>
      rw [advance_eq hown]
      simpa using Scan.moves_advance .painting s c
  | some text =>
      obtain ⟨rfl, -⟩ := ownText?_eq_some_iff.mp hown
      have hnext : (advance before s (.fieldData text)).toLayout =
          { s.toLayout with reverse := false } := by
        simp [advance, hown, DrawingState.advance, DrawingState.set, DrawingState.upright]
      rw [hnext]
      exact ⟨rfl, rfl, by simp⟩

/-- The layout that the painting scan reaches at a place is said by the places before it. -/
theorem laidAt_stateAt (start : DrawingState) (hi : i ≤ cs.length) :
    LaidAt (EndsReversal cs) start.toLayout cs i (stateAt start cs i).toLayout := by
  apply laidAt_of_moves (fun i => (stateAt start cs i).toLayout) _ hi
  intro j c hc
  rw [stateAt_succ hc, propext (endsReversal_iff hc)]
  exact moves_advance _ _ c

theorem moduleWidth_advance (before : List Command) (s : DrawingState) (c : Command) :
    (advance before s c).moduleWidth = (moduleWidth? c).getD s.moduleWidth := by
  rw [advance]
  split <;> cases c <;> rfl

theorem setAt_stateAt (start : DrawingState) (hi : i ≤ cs.length) :
    SetAt moduleWidth? start.moduleWidth cs i (stateAt start cs i).moduleWidth := by
  apply setAt_of_steps (fun i => (stateAt start cs i).moduleWidth) _ hi
  intro j c hc
  rw [stateAt_succ hc, moduleWidth_advance]

/-! ## What a place shows -/

section Shown

open Label

variable {files : Files.Tree} {fontPath : Option String} {canvas : Canvas} {data : FieldData}
variable {start : DrawingState}

theorem taskAt?_eq (hc : cs[i]? = some c) :
    taskAt? data start cs i =
      task? data (cs.take i).reverse (cs.drop (i + 1)) (stateAt start cs i) c := by
  rw [taskAt?, getElem?_visits, hc]
  rfl

theorem piece_of_taskAt?
    (h : (canvas.performAll files fontPath (ofCommands data start cs)).fault = none)
    (hi : i < cs.length) {t : Task} (ht : taskAt? data start cs i = some t) :
    ∃ p, piece files fontPath t = .ok p := by
  apply Canvas.piece_of_performAll h
  rw [ofCommands_eq_filterMap_range]
  exact List.mem_filterMap.mpr ⟨i, List.mem_range.mpr hi, ht⟩

theorem taskAt?_of_ownText (data : FieldData) (start : DrawingState) (h : OwnTextAt cs i text) :
    taskAt? data start cs i = some (.text text (stateAt start cs i).toLayout) := by
  rw [taskAt?_eq h.1, task?_eq_text_iff]
  exact ⟨(ownTextAt_iff h.1).mp h, rfl⟩

/-- A symbol is drawn where the scan stands, with the height and the flag of its own command. -/
theorem taskAt?_of_symbol (start : DrawingState) {height : Int} {flag : String}
    (h : SymbolAt cs i height flag n) (hd : data.get? n = some text) :
    taskAt? data start cs i = some (.symbol ⟨text, (stateAt start cs i).moduleWidth, height, flag⟩
      (stateAt start cs i).x (stateAt start cs i).y) := by
  obtain ⟨hc, hnext⟩ := symbolAt_iff.mp h
  rw [taskAt?_eq hc]
  simp [task?, symbolTask, hnext, hd, advance, ownText?, DrawingState.advance, DrawingState.set]

/-- A place that holds no box, no text of its own and no symbol of a field with data paints
nothing. -/
theorem share_taskAt?_eq_nil (hbox : ∀ box, cs[i]? ≠ some (.graphicBox box))
    (htext : ∀ text, ¬ OwnTextAt cs i text)
    (hsymbol : ∀ height flag n, SymbolAt cs i height flag n → data.get? n = none) :
    share files fontPath (taskAt? data start cs i) = [] := by
  cases hc : cs[i]? with
  | none => simp [taskAt?, getElem?_visits, hc, share]
  | some c =>
      have hown : ownText? (cs.take i).reverse c = none :=
        Option.eq_none_iff_forall_ne_some.mpr fun text ht =>
          htext text ((ownTextAt_iff hc).mpr ht)
      rw [taskAt?_eq hc]
      cases c with
      | graphicBox box => exact absurd hc (hbox box)
      | code128 height flag =>
          cases hnext : nextField? (cs.drop (i + 1)) with
          | none => simp [task?, symbolTask, hnext, share, primitivesOf, piece, note]
          | some n =>
              have hd := hsymbol height flag n (symbolAt_iff.mpr ⟨hc, hnext⟩)
              simp [task?, symbolTask, hnext, hd, share, primitivesOf, piece, note]
      | _ => simp [task?, hown, share]

/-- A scan that paints to its end shows at each place what the places around it say. -/
theorem showsAt_share
    (h : (canvas.performAll files fontPath (ofCommands data start cs)).fault = none)
    (hi : i < cs.length) :
    ShowsAt files fontPath data start cs i (share files fontPath (taskAt? data start cs i)) where
  box box hc := by
    refine ⟨_, laidAt_stateAt start (Nat.le_of_lt hi), ?_⟩
    rw [taskAt?_eq hc]
    simp [task?, share, primitivesOf, piece]
  ownText text htext := by
    have htask := taskAt?_of_ownText data start htext
    obtain ⟨p, hp⟩ := piece_of_taskAt? h hi htask
    obtain ⟨path, hfont, hshown⟩ := share_text htext.2.1 hp
    exact ⟨_, path, laidAt_stateAt start (Nat.le_of_lt hi), hfont, by rw [htask, hshown]⟩
  symbol height flag n text hsymbol hd := by
    have htask := taskAt?_of_symbol start hsymbol hd
    obtain ⟨p, hp⟩ := piece_of_taskAt? h hi htask
    obtain ⟨drawn, hwidth, hshown⟩ := share_symbol hp
    exact ⟨_, _, drawn, laidAt_stateAt start (Nat.le_of_lt hi),
      setAt_stateAt start (Nat.le_of_lt hi), hwidth, by rw [htask, hshown]⟩
  nothing := share_taskAt?_eq_nil

theorem primitives_performAll_ofCommands
    (h : (canvas.performAll files fontPath (ofCommands data start cs)).fault = none) :
    (canvas.performAll files fontPath (ofCommands data start cs)).canvas.primitives =
      canvas.primitives ++ (List.range cs.length).flatMap fun i =>
        share files fontPath (taskAt? data start cs i) := by
  rw [Canvas.primitives_performAll, (Canvas.performed_eq_self_iff canvas _).mpr h,
    ofCommands_eq_filterMap_range, flatMap_filterMap_share]

/-- The fields that symbols are drawn for are those of the symbols at some place. -/
theorem mem_symbolFields_iff_symbolAt :
    n ∈ symbolFields cs ↔ ∃ i height flag, SymbolAt cs i height flag n := by
  rw [symbolFields_eq_filterMap [] .initial, List.mem_filterMap]
  simp only [List.mem_iff_getElem?, getElem?_visitsFrom, Option.map_eq_some_iff, symbolAt_iff]
  constructor
  · rintro ⟨_, ⟨i, c, hc, rfl⟩, hn⟩
    cases c with
    | code128 height flag => exact ⟨i, height, flag, hc, hn⟩
    | _ => cases hn
  · rintro ⟨i, height, flag, hc, hn⟩
    exact ⟨_, ⟨i, _, hc, rfl⟩, hn⟩

/-- A scan that paints to its end adds, place after place, what stands there: the rectangle of a
box, the line of a text of its own, the symbol of a field with data, and nothing else. Where and how
an item is painted is said by the places before it. The symbols drawn, those of fields without data
among them, name the fields that are no longer shown as texts. -/
theorem performAll_ofCommands_by_places
    (h : (canvas.performAll files fontPath (ofCommands data start cs)).fault = none) :
    (∃ shown : Nat → List Primitive,
      (canvas.performAll files fontPath (ofCommands data start cs)).canvas.primitives =
        canvas.primitives ++ (List.range cs.length).flatMap shown ∧
      ∀ i < cs.length, ShowsAt files fontPath data start cs i (shown i)) ∧
    ∀ n, n ∈ symbolFields cs ↔ ∃ i height flag, SymbolAt cs i height flag n :=
  ⟨⟨_, primitives_performAll_ofCommands h, fun _ => showsAt_share h⟩,
    fun _ => mem_symbolFields_iff_symbolAt⟩

/-- A label of a reversed box, a text of its own and a symbol. -/
def boxTextAndSymbol : List Command :=
  [.fieldReverse, .graphicBox ⟨10, 10, 2⟩, .fieldOrigin 5 5, .fieldData "Ham", .code128 40 "Y",
    .fieldSeparator, .fieldNumber 2]

theorem performAll_ofCommands_by_places_boxTextAndSymbol :
    (Canvas.small.performAll .oneFont (some "f")
      (ofCommands [(2, "AB")] .initial boxTextAndSymbol)).fault = none ∧
    (∃ shown : Nat → List Primitive,
      (Canvas.small.performAll .oneFont (some "f")
          (ofCommands [(2, "AB")] .initial boxTextAndSymbol)).canvas.primitives =
        Canvas.small.primitives ++ (List.range boxTextAndSymbol.length).flatMap shown ∧
      ∀ i < boxTextAndSymbol.length,
        ShowsAt .oneFont (some "f") [(2, "AB")] .initial boxTextAndSymbol i (shown i)) := by
  have hfault : (Canvas.small.performAll .oneFont (some "f")
      (ofCommands [(2, "AB")] .initial boxTextAndSymbol)).fault = none := by
    decide +kernel
  exact ⟨hfault, (performAll_ofCommands_by_places hfault).1⟩

end Shown

end Plan

end LabelPress
