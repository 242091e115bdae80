import LabelPress.Field.Data
import LabelPress.Proofs.Entries

/-!
# Which field takes a text

Reading a command stream for the texts of fields needs one thing only, the field that waits. A field
waits exactly as long as nothing but separators has followed its declaration.
-/

namespace LabelPress.FieldData

/-- The field that waits after a command. -/
def await (waiting : Option Int) : Command → Option Int
  | .fieldNumber n => some n
  | .fieldSeparator => waiting
  | _ => none

/-- The field that waits after commands. -/
def awaitAll (waiting : Option Int) (cs : List Command) : Option Int := cs.foldl await waiting

/-- The binding that a command makes while a field may wait. -/
def binding? (waiting : Option Int) : Command → Option (Int × String)
  | .fieldData text => waiting.map fun n => (n, text)
  | _ => none

/-- The binding that is made at a place of a command stream. -/
def bindingAt? (cs : List Command) (j : Nat) : Option (Int × String) :=
  cs[j]?.bind (binding? (awaitAll none (cs.take j)))

@[simp] theorem awaitAll_nil (waiting : Option Int) : awaitAll waiting [] = waiting := rfl

@[simp] theorem awaitAll_cons (waiting : Option Int) (c : Command) (cs : List Command) :
    awaitAll waiting (c :: cs) = awaitAll (await waiting c) cs := rfl

@[simp] theorem awaitAll_append (waiting : Option Int) (cs ds : List Command) :
    awaitAll waiting (cs ++ ds) = awaitAll (awaitAll waiting cs) ds :=
  List.foldl_append

@[simp] theorem bindings_nil (waiting : Option Int) : bindings waiting [] = [] := by
  cases waiting <;> rfl

theorem bindings_cons (waiting : Option Int) (c : Command) (cs : List Command) :
    bindings waiting (c :: cs) =
      (binding? waiting c).toList ++ bindings (await waiting c) cs := by
  cases c <;> cases waiting <;> rfl

theorem bindings_append (waiting : Option Int) (cs ds : List Command) :
    bindings waiting (cs ++ ds) = bindings waiting cs ++ bindings (awaitAll waiting cs) ds := by
  induction cs generalizing waiting with
  | nil => simp
  | cons c rest ih =>
      rw [List.cons_append, bindings_cons, bindings_cons, ih, awaitAll_cons, List.append_assoc]

/-- A field waits exactly if nothing but separators has followed its declaration. -/
theorem awaitAll_eq_some_iff {cs : List Command} {n : Int} :
    awaitAll none cs = some n ↔
      ∃ earlier k, cs = earlier ++ .fieldNumber n :: List.replicate k .fieldSeparator := by
  constructor
  · intro h
    induction cs using List.reverseRecOn with
    | nil => cases h
    | append_singleton cs c ih =>
        rw [awaitAll_append] at h
        cases c with
        | fieldNumber m =>
            have hm : m = n := Option.some.inj h
            exact ⟨cs, 0, by simp [hm]⟩
        | fieldSeparator =>
            obtain ⟨earlier, k, hk⟩ := ih h
            exact ⟨earlier, k + 1, by simp [hk, List.replicate_succ']⟩
        | _ => cases h
  · rintro ⟨earlier, k, rfl⟩
    rw [awaitAll_append, awaitAll_cons]
    induction k with
    | zero => rfl
    | succ k ih => exact ih

/-- A text is bound to the field that waits where it stands. -/
theorem bindingAt?_eq_some_iff {cs : List Command} {j : Nat} {n : Int} {text : String} :
    bindingAt? cs j = some (n, text) ↔
      cs[j]? = some (.fieldData text) ∧ awaitAll none (cs.take j) = some n := by
  rw [bindingAt?]
  cases hc : cs[j]? with
  | none => simp
  | some c =>
      cases c with
      | fieldData t => simp [binding?, and_comm]
      | _ => simp [binding?]

/-- The bindings of a command stream are those made at its places. -/
theorem bindings_eq_filterMap (cs : List Command) :
    bindings none cs = (List.range cs.length).filterMap (bindingAt? cs) := by
  induction cs using List.reverseRecOn with
  | nil => simp
  | append_singleton cs c ih =>
      have hold : (List.range cs.length).filterMap (bindingAt? (cs ++ [c])) =
          (List.range cs.length).filterMap (bindingAt? cs) := by
        apply List.filterMap_congr
        intro j hj
        have hlt : j < cs.length := List.mem_range.mp hj
        rw [bindingAt?, bindingAt?, List.getElem?_append_left hlt,
          List.take_append_of_le_length (Nat.le_of_lt hlt)]
      have hnew : bindingAt? (cs ++ [c]) cs.length = binding? (awaitAll none cs) c := by
        rw [bindingAt?, List.getElem?_concat_length, List.take_left, Option.bind_some]
      rw [bindings_append, bindings_cons, bindings_nil, List.append_nil, List.length_append,
        List.length_singleton, List.range_succ, List.filterMap_append, hold, ih]
      cases hb : binding? (awaitAll none cs) c <;> simp [hnew, hb]

/-- Commands without a text bind nothing. -/
theorem bindings_eq_nil {cs : List Command} (h : ∀ text, Command.fieldData text ∉ cs)
    (waiting : Option Int) : bindings waiting cs = [] := by
  induction cs generalizing waiting with
  | nil => simp
  | cons c rest ih =>
      have hrest : ∀ text, Command.fieldData text ∉ rest := fun text ht =>
        h text (List.mem_cons_of_mem c ht)
      rw [bindings_cons, ih hrest, List.append_nil]
      cases c with
      | fieldData text => exact absurd List.mem_cons_self (h text)
      | _ => rfl

/-- The binding of a text to a field is the last one for the field. -/
def LastBinding (cs : List Command) (n : Int) (text : String) : Prop :=
  ∃ earlier later, bindings none cs = earlier ++ (n, text) :: later ∧ n ∉ later.map Prod.fst

/-- A field keeps the text that was bound to it last. -/
theorem get?_ofCommands_eq_some_iff {cs : List Command} {n : Int} {text : String} :
    Entries.get? n (ofCommands cs) = some text ↔ LastBinding cs n text := by
  constructor
  · exact Entries.exists_last_of_get?_putAll
  · rintro ⟨earlier, later, hb, hl⟩
    rw [ofCommands, hb]
    exact Entries.get?_putAll_of_last hl [] earlier text

theorem nodup_keys_ofCommands (cs : List Command) : (Entries.keys (ofCommands cs)).Nodup := by
  apply Entries.nodup_keys_putAll
  exact List.nodup_nil

end LabelPress.FieldData
