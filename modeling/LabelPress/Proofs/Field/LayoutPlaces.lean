import LabelPress.Proofs.Entries.Places
import LabelPress.Proofs.Field.Declarations
import LabelPress.Proofs.Stream.Standing

/-!
# The layouts of fields by their places

A field is laid out by what stands at the place of its first declaration, if no format has been
recalled before it. What stands there is said by the places before it; commands that set neither a
position nor a font, declare nothing and neither raise nor end a reversal never matter.
-/

namespace LabelPress

namespace Command

/-- Whether a command can matter to the layouts of fields. -/
def laysOut : Command → Bool
  | fieldFont .. | fieldOrigin .. | fieldNumber _ | fieldReverse | graphicBox _ => true
  | _ => false

/-- A field is declared at a place, and no format is recalled before it. -/
def DeclaredAt (cs : List Command) (n : Int) (j : Nat) : Prop :=
  cs[j]? = some (.fieldNumber n) ∧ ∀ i < j, ∀ name, cs[i]? ≠ some (.recallFormat name)

/-- A field is declared for the first time at a place, and no format is recalled before it. -/
def FirstDeclaredAt (cs : List Command) (n : Int) (j : Nat) : Prop :=
  DeclaredAt cs n j ∧ ∀ i < j, cs[i]? ≠ some (.fieldNumber n)

variable {cs : List Command} {c : Command} {n : Int} {j : Nat}

theorem isRecall_eq_true_iff : c.isRecall = true ↔ ∃ name, c = .recallFormat name := by
  cases c <;> simp [isRecall]

/-- The template has what the stream has up to the first recall. -/
theorem getElem?_template_eq_some_iff :
    (template cs)[j]? = some c ↔ cs[j]? = some c ∧ c.isRecall = false ∧
      ∀ i < j, ∀ name, cs[i]? ≠ some (.recallFormat name) := by
  induction cs generalizing j with
  | nil => simp [template]
  | cons d rest ih =>
      cases hd : d.isRecall with
      | true =>
          obtain ⟨name, rfl⟩ := isRecall_eq_true_iff.mp hd
          have hnil : template (recallFormat name :: rest) = [] := rfl
          rw [hnil]
          constructor
          · intro h
            cases h
          · rintro ⟨hc, hrecall, hbefore⟩
            cases j with
            | zero =>
                obtain rfl := Option.some.inj hc
                cases hrecall
            | succ j => exact absurd rfl (hbefore 0 (Nat.succ_pos j) name)
      | false =>
          have hcons : template (d :: rest) = d :: template rest := by simp [template, hd]
          have hkeep : ∀ name, some d ≠ some (recallFormat name) := by
            rintro name hname
            rw [Option.some.inj hname] at hd
            cases hd
          rw [hcons]
          cases j with
          | zero =>
              simp only [List.getElem?_cons_zero, Option.some.injEq]
              exact ⟨fun h => ⟨h, h ▸ hd, fun i hi => absurd hi (Nat.not_lt_zero i)⟩, And.left⟩
          | succ j =>
              rw [List.getElem?_cons_succ, List.getElem?_cons_succ, ih, Nat.forall_lt_succ_left]
              simp only [List.getElem?_cons_zero, List.getElem?_cons_succ]
              constructor
              · rintro ⟨hc, hrecall, hbefore⟩
                exact ⟨hc, hrecall, hkeep, hbefore⟩
              · rintro ⟨hc, hrecall, -, hbefore⟩
                exact ⟨hc, hrecall, hbefore⟩

/-- A field is declared in the template exactly where it is declared before any recall. -/
theorem declaredAt_iff : (template cs)[j]? = some (.fieldNumber n) ↔ DeclaredAt cs n j := by
  rw [getElem?_template_eq_some_iff, DeclaredAt]
  exact ⟨fun ⟨hc, _, hb⟩ => ⟨hc, hb⟩, fun ⟨hc, hb⟩ => ⟨hc, rfl, hb⟩⟩

theorem DeclaredAt.lt_length (h : DeclaredAt cs n j) : j < cs.length :=
  (List.getElem?_eq_some_iff.mp h.1).1

/-- No declaration before a place of the template is behind a recall. -/
theorem firstDeclaredAt_iff :
    FirstDeclaredAt cs n j ↔ DeclaredAt cs n j ∧ ∀ i < j, ¬ DeclaredAt cs n i := by
  constructor
  · rintro ⟨hj, hfirst⟩
    exact ⟨hj, fun i hi hdeclared => hfirst i hi hdeclared.1⟩
  · rintro ⟨hj, hfirst⟩
    exact ⟨hj, fun i hi hdeclared =>
      hfirst i hi ⟨hdeclared, fun k hk => hj.2 k (Nat.lt_trans hk hi)⟩⟩

end Command

namespace FieldLayouts

open Command Scan DrawingState

variable {cs : List Command} {start : DrawingState} {n : Int} {j : Nat}

/-- A reversal ends at a place: a box uses it up, or a declaration, be it the first of its field or
not. -/
def EndsReversal (cs : List Command) (k : Nat) : Prop :=
  (∃ box, cs[k]? = some (.graphicBox box)) ∨ ∃ n, cs[k]? = some (.fieldNumber n)

theorem endsReversal_iff {c : Command} (hc : cs[j]? = some c) :
    EndsReversal cs j ↔ ResetRules.layout.resets c = true := by
  rw [EndsReversal, hc]
  cases c <;> simp [ResetRules.resets, ResetRules.layout]

/-! ## What stands at a place -/

/-- The state that the scan for layouts reaches at a place is laid out by the places before it. -/
theorem laidAt_run (start : DrawingState) (hj : j ≤ cs.length) :
    LaidAt (EndsReversal cs) start.toLayout cs j (start.run .layout (cs.take j)).toLayout := by
  apply laidAt_of_moves (fun j => (start.run .layout (cs.take j)).toLayout) _ hj
  intro i c hc
  obtain ⟨hi, rfl⟩ := List.getElem?_eq_some_iff.mp hc
  rw [List.take_succ_eq_append_getElem hi, run_append, run_cons, run_nil,
    propext (endsReversal_iff hc)]
  exact moves_advance .layout _ _

theorem take_template (hj : j < (template cs).length) : (template cs).take j = cs.take j := by
  obtain ⟨rest, hrest⟩ : template cs <+: cs := List.takeWhile_prefix _
  calc
    (template cs).take j = (template cs ++ rest).take j :=
      (List.take_append_of_le_length (Nat.le_of_lt hj)).symm
    _ = cs.take j := by rw [hrest]

/-- A field that is first declared at a place is laid out by the state that is reached there. -/
theorem firstDeclaration_of_place (h : FirstDeclaredAt cs n j) :
    FirstDeclaration start cs n (start.run .layout (cs.take j)).toLayout := by
  obtain ⟨hj, hget⟩ := List.getElem?_eq_some_iff.mp (declaredAt_iff.mpr h.1)
  refine ⟨cs.take j, (template cs).drop (j + 1), ?_, fun hmem => ?_, rfl⟩
  · rw [← take_template hj, ← hget, ← List.drop_eq_getElem_cons hj, List.take_append_drop]
  · obtain ⟨i, hi⟩ := List.mem_iff_getElem?.mp hmem
    rw [List.getElem?_take] at hi
    split at hi
    · next hlt => exact h.2 i hlt hi
    · cases hi

/-! ## Keys -/

theorem keys_ofCommands (start : DrawingState) (cs : List Command) :
    Entries.keys (ofCommands start cs) = ((List.range (template cs).length).filterMap fun j =>
      (template cs)[j]?.bind declares?).eraseDups := by
  rw [ofCommands_eq_putAllNew, Entries.keys_putAllNew, keys_declarations,
    filterMap_eq_filterMap_range]

theorem declares?_template_eq_some_iff :
    (template cs)[j]?.bind declares? = some n ↔ DeclaredAt cs n j := by
  simp only [Option.bind_eq_some_iff, declares?_eq_some_iff, exists_eq_right, declaredAt_iff]

theorem mem_keys_ofCommands_iff :
    n ∈ Entries.keys (ofCommands start cs) ↔ ∃ j, DeclaredAt cs n j := by
  rw [keys_ofCommands, List.mem_eraseDups, mem_filterMap_range_iff]
  simp only [declares?_template_eq_some_iff]
  refine ⟨fun ⟨j, _, hj⟩ => ⟨j, hj⟩, fun ⟨j, hj⟩ => ⟨j, ?_, hj⟩⟩
  exact (List.getElem?_eq_some_iff.mp (declaredAt_iff.mpr hj)).1

theorem firstAt_iff_firstDeclaredAt :
    Entries.FirstAt (fun j => (template cs)[j]?.bind declares?) n j ↔ FirstDeclaredAt cs n j := by
  simp only [Entries.FirstAt, ne_eq, declares?_template_eq_some_iff, firstDeclaredAt_iff]

/-! ## Commands that do not matter -/

/-- A command moves states with one layout on to states with one layout. -/
theorem toLayout_advance_congr {s t : DrawingState} (h : s.toLayout = t.toLayout) (c : Command) :
    (s.advance .layout c).toLayout = (t.advance .layout c).toLayout := by
  obtain ⟨layout, _, _, _⟩ := s
  obtain ⟨layout', _, _, _⟩ := t
  obtain rfl : layout = layout' := h
  cases c <;> rfl

theorem toLayout_advance_of_not_laysOut {c : Command} (h : c.laysOut = false) (s : DrawingState) :
    (s.advance .layout c).toLayout = s.toLayout := by
  cases c with
  | fieldFont | fieldOrigin | fieldNumber | fieldReverse | graphicBox => cases h
  | _ => simp [DrawingState.advance, DrawingState.set, ResetRules.resets, ResetRules.layout]

theorem declarations_filter_laysOut {s t : DrawingState} (h : s.toLayout = t.toLayout)
    (cs : List Command) : declarations s (cs.filter laysOut) = declarations t cs := by
  induction cs generalizing s t with
  | nil => rfl
  | cons c rest ih =>
      cases hc : c.laysOut with
      | true =>
          rw [List.filter_cons_of_pos hc, declarations, declarations, h,
            ih (toLayout_advance_congr h c)]
      | false =>
          have hnone : c.declares? = none := by
            cases c with
            | fieldNumber n => cases hc
            | _ => rfl
          have hsame : s.toLayout = (t.advance .layout c).toLayout := by
            rw [toLayout_advance_of_not_laysOut hc, h]
          rw [List.filter_cons_of_neg (by simp [hc]), declarations, hnone, ih hsame]
          rfl

/-- The layouts of a stream: the fields that are declared before any recall, in the order of their
first declarations, each once; a field has the layout that stands at the place of its first
declaration, and only a box or a declaration ends a reversal. Streams whose templates differ in
nothing that lays out have the same layouts. -/
theorem layouts_by_places (start : DrawingState) (cs : List Command) :
    (∀ n, n ∈ Entries.keys (ofCommands start cs) ↔ ∃ j, DeclaredAt cs n j) ∧
    (∀ n j, FirstDeclaredAt cs n j → ∃ layout,
      Entries.get? n (ofCommands start cs) = some layout ∧
        LaidAt (EndsReversal cs) start.toLayout cs j layout) ∧
    (Entries.keys (ofCommands start cs)).Nodup ∧
    ((Entries.keys (ofCommands start cs)).Pairwise fun m n =>
      ∀ i j, FirstDeclaredAt cs m i → FirstDeclaredAt cs n j → i < j) ∧
    ∀ ds : List Command,
      (template ds).filter laysOut = (template cs).filter laysOut →
        ofCommands start ds = ofCommands start cs := by
  refine ⟨fun n => mem_keys_ofCommands_iff, fun n j h => ?_, nodup_keys_ofCommands start cs, ?_,
    fun ds h => ?_⟩
  · exact ⟨_, get?_ofCommands_of_first (firstDeclaration_of_place h),
      laidAt_run start (Nat.le_of_lt h.1.lt_length)⟩
  · rw [keys_ofCommands]
    simpa only [firstAt_iff_firstDeclaredAt] using
      Entries.pairwise_eraseDups_filterMap_range
        (fun j => (template cs)[j]?.bind declares?) (template cs).length
  · rw [ofCommands_eq_putAllNew, ← declarations_filter_laysOut rfl, h,
      declarations_filter_laysOut rfl, ofCommands_eq_putAllNew]

end FieldLayouts

end LabelPress
