import LabelPress.Proofs.Field.Bindings
import LabelPress.Proofs.Field.Declarations
import LabelPress.Proofs.Painting.Performed
import LabelPress.Proofs.Stream.Visits
import Mathlib.Data.List.DropRight

/-!
# Settled commands

Three things can stay open after commands: a field waits for its text, a symbol for its field, and a
declaration is still in sight of the next text. Where none of them does, the commands have settled,
and every pass goes on from there as from a start, in the state that the commands have left.
-/

namespace LabelPress

namespace Command

variable {cs : List Command} {c : Command}

/-- Commands after which nothing is open. -/
structure Settled (cs : List Command) : Prop where
  /-- No declaration ends the commands, separators after it apart. -/
  field : ∀ lead n k, cs ≠ lead ++ .fieldNumber n :: List.replicate k .fieldSeparator
  /-- No symbol ends the commands, separators after it apart. -/
  symbol : ∀ lead height flag k,
    cs ≠ lead ++ .code128 height flag :: List.replicate k .fieldSeparator
  /-- No declaration is among the last three commands. -/
  sight : ∀ n, .fieldNumber n ∉ cs.rtake 3

/-! ## How commands settle -/

theorem settled_nil : Settled [] where
  field lead n k h := by simp at h
  symbol lead height flag k h := by simp at h
  sight n := by simp

/-- Before separators at the end stands the last command, unless it is a separator itself. -/
theorem eq_or_eq_separator_of_concat {lead : List Command} {d : Command} {k : Nat}
    (h : cs ++ [c] = lead ++ d :: List.replicate k .fieldSeparator) :
    c = d ∨ c = .fieldSeparator := by
  cases k with
  | zero => exact Or.inl (List.singleton_inj.mp (List.append_inj' h rfl).2)
  | succ k =>
      rw [List.replicate_succ', ← List.cons_append, ← List.append_assoc] at h
      exact Or.inr (List.singleton_inj.mp (List.append_inj' h rfl).2)

/-- A command that is no declaration, no symbol and no separator settles what was not in sight any
more. -/
theorem settled_concat (hsight : ∀ n, .fieldNumber n ∉ cs.rtake 2)
    (hfield : ∀ n, c ≠ .fieldNumber n) (hsymbol : ∀ height flag, c ≠ .code128 height flag)
    (hseparator : c ≠ .fieldSeparator) : Settled (cs ++ [c]) where
  field lead n k h :=
    (eq_or_eq_separator_of_concat h).elim (hfield n) hseparator
  symbol lead height flag k h :=
    (eq_or_eq_separator_of_concat h).elim (hsymbol height flag) hseparator
  sight n := by
    rw [List.rtake_concat_succ, List.mem_append, List.mem_singleton]
    rintro (h | h)
    · exact hsight n h
    · exact hfield n h.symm

theorem declaredWithin_reverse {window : Nat} {before : List Command} :
    declaredWithin window before.reverse = false ↔
      ∀ n, .fieldNumber n ∉ before.rtake window := by
  rw [declaredWithin, List.any_eq_false, List.rtake_eq_reverse_take_reverse]
  constructor
  · intro h n hn
    exact h _ (List.mem_reverse.mp hn) rfl
  · intro h c hc hdeclares
    obtain ⟨n, hn⟩ := Option.isSome_iff_exists.mp hdeclares
    rw [declares?_eq_some_iff] at hn
    subst hn
    exact h n (List.mem_reverse.mpr hc)

theorem Settled.declaredWithin (h : Settled cs) : declaredWithin lookback cs.reverse = false :=
  declaredWithin_reverse.mpr h.sight

theorem Settled.awaitAll (h : Settled cs) : FieldData.awaitAll none cs = none := by
  rw [Option.eq_none_iff_forall_ne_some]
  intro n hn
  obtain ⟨lead, k, hcs⟩ := FieldData.awaitAll_eq_some_iff.mp hn
  exact h.field lead n k hcs

/-! ## What is out of sight or decided -/

/-- Declarations that are out of sight stay so. -/
theorem declaredWithin_append {window : Nat} {before : List Command}
    (h : Command.declaredWithin window before = false) (recent : List Command) :
    Command.declaredWithin window (recent ++ before) = Command.declaredWithin window recent := by
  have hfar : (before.take (window - recent.length)).any (fun c => c.declares?.isSome) = false := by
    rw [Command.declaredWithin, List.any_eq_false] at h
    rw [List.any_eq_false]
    intro c hc
    exact h c (List.take_subset_take_left before (Nat.sub_le ..) hc)
  rw [Command.declaredWithin, List.take_append, List.any_append, hfar, Bool.or_false,
    Command.declaredWithin]

/-- The field after a symbol is decided by the first command that is no separator. -/
theorem nextField?_append_of_ne {after : List Command}
    (h : ∀ k, after ≠ List.replicate k .fieldSeparator) (later : List Command) :
    nextField? (after ++ later) = nextField? after := by
  induction after with
  | nil => exact absurd rfl (h 0)
  | cons c rest ih =>
      cases c with
      | fieldSeparator =>
          apply ih
          intro k hk
          exact h (k + 1) (congrArg (List.cons fieldSeparator) hk)
      | _ => rfl

end Command

open Command

/-! ## The passes after settled commands -/

/-- The bindings after settled commands are those of the commands that follow alone. -/
theorem FieldData.bindings_append_of_settled {cs : List Command} (h : Settled cs)
    (ds : List Command) : bindings none (cs ++ ds) = bindings none cs ++ bindings none ds := by
  rw [bindings_append, h.awaitAll]

namespace Plan

variable {cs : List Command} {before : List Command} {data : FieldData} {s : DrawingState}

/-- No symbol is left open at the end of commands. -/
def Decided (cs : List Command) : Prop :=
  ∀ lead height flag k, cs ≠ lead ++ .code128 height flag :: List.replicate k .fieldSeparator

theorem Decided.tail {c : Command} (h : Decided (c :: cs)) : Decided cs :=
  fun lead height flag k hcs => h (c :: lead) height flag k (congrArg (List.cons c) hcs)

/-- What follows decided commands does not matter to the field of a symbol among them. -/
theorem nextField?_append_of_decided {height : Int} {flag : String}
    (h : Decided (.code128 height flag :: cs)) (ds : List Command) :
    nextField? (cs ++ ds) = nextField? cs :=
  nextField?_append_of_ne (fun k hk => h [] height flag k (congrArg _ hk)) ds

theorem task?_append_of_decided {c : Command} (h : Decided (c :: cs)) (ds : List Command) :
    task? data before (cs ++ ds) s c = task? data before cs s c := by
  cases c with
  | code128 height flag => simp only [task?, symbolTask, nextField?_append_of_decided h]
  | _ => rfl

theorem symbolField?_append_of_decided {c : Command} (h : Decided (c :: cs)) (ds : List Command) :
    symbolField? (cs ++ ds) c = symbolField? cs c := by
  cases c with
  | code128 height flag => exact nextField?_append_of_decided h ds
  | _ => rfl

theorem commandsFrom_append_of_decided (h : Decided cs) (ds : List Command) :
    commandsFrom data before s (cs ++ ds) =
      commandsFrom data before s cs ++
        commandsFrom data (cs.reverse ++ before) (stateFrom before s cs) ds := by
  induction cs generalizing before s with
  | nil => rfl
  | cons c rest ih =>
      rw [List.cons_append, commandsFrom, task?_append_of_decided h, ih h.tail, commandsFrom,
        List.append_assoc, List.reverse_cons, List.append_assoc]
      rfl

theorem symbolFields_append_of_decided (h : Decided cs) (ds : List Command) :
    symbolFields (cs ++ ds) = symbolFields cs ++ symbolFields ds := by
  induction cs with
  | nil => rfl
  | cons c rest ih =>
      rw [List.cons_append, symbolFields, symbolField?_append_of_decided h, ih h.tail,
        symbolFields, List.append_assoc]

/-! ### Commands out of sight -/

theorem ownText?_append (h : declaredWithin lookback before = false) (recent : List Command)
    (c : Command) : ownText? (recent ++ before) c = ownText? recent c := by
  cases c with
  | fieldData text => rw [ownText?, declaredWithin_append h, ownText?]
  | _ => rfl

theorem advance_append (h : declaredWithin lookback before = false) (recent : List Command)
    (s : DrawingState) (c : Command) : advance (recent ++ before) s c = advance recent s c := by
  rw [advance, advance, ownText?_append h]

/-- A command asks for the same to be painted. Only the place in a report differs. -/
theorem items_task?_append (h : declaredWithin lookback before = false) (recent after : List Command)
    (c : Command) :
    Plan.items (task? data (recent ++ before) after s c).toList =
      Plan.items (task? data recent after s c).toList := by
  cases c with
  | code128 height flag =>
      simp only [task?, advance_append h, symbolTask]
      cases nextField? after <;> rfl
  | fieldData text => simp only [task?, ownText?_append h]
  | _ => rfl

theorem items_commandsFrom_append (h : declaredWithin lookback before = false)
    (recent : List Command) :
    Plan.items (commandsFrom data (recent ++ before) s cs) =
      Plan.items (commandsFrom data recent s cs) := by
  induction cs generalizing recent s with
  | nil => rfl
  | cons c rest ih =>
      rw [commandsFrom, commandsFrom, items_append, items_append, items_task?_append h,
        advance_append h, ← List.cons_append, ih]

theorem stateFrom_append_before (h : declaredWithin lookback before = false)
    (recent : List Command) : stateFrom (recent ++ before) s cs = stateFrom recent s cs := by
  induction cs generalizing recent s with
  | nil => rfl
  | cons c rest ih => rw [stateFrom, advance_append h, ← List.cons_append, ih, stateFrom]

/-! ### Commands after settled ones -/

/-- After settled commands the painting scan asks for what the commands that follow ask for
alone. -/
theorem items_ofCommands_append_of_settled (h : Settled cs) (ds : List Command) :
    Plan.items (ofCommands data s (cs ++ ds)) =
      Plan.items (ofCommands data s cs) ++ Plan.items (ofCommands data (stateFrom [] s cs) ds) := by
  have hfar : Plan.items (commandsFrom data ([] ++ cs.reverse) (stateFrom [] s cs) ds) =
      Plan.items (commandsFrom data [] (stateFrom [] s cs) ds) :=
    items_commandsFrom_append h.declaredWithin []
  rw [ofCommands, commandsFrom_append_of_decided h.symbol, items_append, List.append_nil, ofCommands,
    ofCommands, ← hfar, List.nil_append]

theorem stateFrom_append_of_settled (h : Settled cs) (ds : List Command) :
    stateFrom [] s (cs ++ ds) = stateFrom [] (stateFrom [] s cs) ds := by
  rw [stateFrom_append, List.append_nil]
  exact stateFrom_append_before h.declaredWithin []

end Plan

end LabelPress
