import LabelPress.Proofs.Entries
import LabelPress.Proofs.Number.Numerals
import LabelPress.Settings.Json

/-!
# What settings files spell

A key that is given again takes the later value in its old place, so an object that was read has no
key twice. An integer with more digits than may be read ends the reading, wherever it lies, so every
value that was read has a shown form.
-/

namespace LabelPress.Settings

open LabelPress.Number

namespace Value

theorem areShowable_iff {vs : List Value} :
    areShowable vs = true ↔ ∀ v ∈ vs, v.isShowable = true := by
  induction vs with
  | nil => simp [areShowable]
  | cons v rest ih => simp [areShowable, ih]

theorem haveShowable_iff {es : Entries Text.CodePoints Value} :
    haveShowable es = true ↔ ∀ e ∈ es, e.2.isShowable = true := by
  induction es with
  | nil => simp [haveShowable]
  | cons e rest ih => simp [haveShowable, ih]

end Value

namespace Json

theorem exists_of_map_eq_ok {ε α β : Type} {x : Except ε α} {f : α → β} {b : β}
    (h : x.map f = .ok b) : ∃ a, x = .ok a ∧ f a = b := by
  cases x with
  | error e => cases h
  | ok a => exact ⟨a, rfl, Except.ok.inj h⟩

theorem exists_of_bind_eq_ok {ε α β : Type} {x : Except ε α} {f : α → Except ε β} {b : β}
    (h : x >>= f = .ok b) : ∃ a, x = .ok a ∧ f a = .ok b := by
  cases x with
  | error e => cases h
  | ok a => exact ⟨a, rfl, h⟩

/-! ## Cases -/

/-- What a value that is read can be. Items and members are read with one unit of fuel less. -/
inductive ReadAs (fuel : Nat) (cs rest : List Char) : Value → Prop
  | text (s : Text.CodePoints) : ReadAs fuel cs rest (.text s)
  | noItems : ReadAs fuel cs rest (.list [])
  | items {less left : Nat} {start after : List Char} {vs : List Value} (hfuel : fuel = less + 1)
      (h : Json.items less left start = .ok (vs, after)) : ReadAs fuel cs rest (.list vs)
  | noMembers : ReadAs fuel cs rest (.object [])
  | members {less left : Nat} {start after : List Char} {es : Entries Text.CodePoints Value}
      (hfuel : fuel = less + 1) (h : Json.members less left [] start = .ok (es, after)) :
      ReadAs fuel cs rest (.object es)
  | constant {v : Value} (word : String) (h : (word, v) ∈ constants) : ReadAs fuel cs rest v
  | number {v : Value} (h : Json.number cs = .ok (v, rest)) : ReadAs fuel cs rest v

theorem readAs_of_value {fuel left : Nat} {cs rest : List Char} {v : Value}
    (h : value fuel left cs = .ok (v, rest)) : ReadAs fuel cs rest v := by
  unfold value at h
  split at h
  · cases h
  · obtain ⟨r, -, heq⟩ := exists_of_map_eq_ok h
    cases heq
    exact .text _
  · split at h
    · cases h
    · cases h
      exact .noItems
    · obtain ⟨⟨vs, after⟩, hitems, heq⟩ := exists_of_map_eq_ok h
      cases heq
      exact .items rfl hitems
  · split at h
    · cases h
    · cases h
      exact .noMembers
    · obtain ⟨⟨es, after⟩, hmembers, heq⟩ := exists_of_map_eq_ok h
      cases heq
      exact .members rfl hmembers
  · split at h
    · next hconstant =>
      cases h
      obtain ⟨⟨word, w⟩, hword, heq⟩ := List.exists_of_findSome?_eq_some hconstant
      obtain ⟨after, -, hpair⟩ := Option.map_eq_some_iff.mp heq
      obtain rfl : w = v := congrArg Prod.fst hpair
      exact .constant word hword
    · exact .number h

/-! ## Items and members -/

/-- What holds of every value that is read with less fuel holds of the items of a list. -/
theorem forall_mem_items {P : Value → Prop} {fuel left : Nat} {cs rest : List Char}
    {vs : List Value} (hvalue : ∀ less < fuel, ∀ {cs rest v},
      value less left cs = .ok (v, rest) → P v)
    (h : items fuel left cs = .ok (vs, rest)) : ∀ v ∈ vs, P v := by
  induction fuel generalizing cs vs with
  | zero => simp [items, stuckAt] at h
  | succ fuel ih =>
      unfold items at h
      obtain ⟨⟨v, after⟩, hv, h⟩ := exists_of_bind_eq_ok h
      have hfirst := hvalue fuel fuel.lt_succ_self hv
      dsimp only at h
      split at h
      · cases h
        exact List.forall_mem_singleton.mpr hfirst
      · obtain ⟨⟨more, after⟩, hmore, heq⟩ := exists_of_map_eq_ok h
        cases heq
        have hrest := ih (fun less hless => hvalue less (hless.trans fuel.lt_succ_self)) hmore
        exact List.forall_mem_cons.mpr ⟨hfirst, hrest⟩
      · cases h

/-- What writing a value that is read with less fuel keeps is kept by reading members. -/
theorem members_induction {P : Entries Text.CodePoints Value → Prop} {fuel left : Nat}
    {cs rest : List Char} {entries es : Entries Text.CodePoints Value}
    (hput : ∀ less < fuel, ∀ {cs rest v}, value less left cs = .ok (v, rest) →
      ∀ {entries} key, P entries → P (entries.put key v))
    (h : members fuel left entries cs = .ok (es, rest)) (hentries : P entries) : P es := by
  induction fuel generalizing entries cs with
  | zero => simp [members, stuckAt] at h
  | succ fuel ih =>
      unfold members at h
      split at h
      · cases ‹fuel + 1 = _›
        obtain ⟨⟨key, after⟩, -, h⟩ := exists_of_bind_eq_ok h
        dsimp only at h
        split at h
        · obtain ⟨⟨v, after⟩, hv, h⟩ := exists_of_bind_eq_ok h
          have hwritten := hput fuel fuel.lt_succ_self hv key hentries
          dsimp only at h
          split at h
          · cases h
            exact hwritten
          · exact ih (fun less hless => hput less (hless.trans fuel.lt_succ_self)) h hwritten
          · cases h
        · cases h
      · cases h

/-! ## Whole texts -/

theorem exists_value_of_read {text : List Char} {v : Value} (h : read text = .ok v) :
    ∃ rest, value (2 * text.length + 2) depthLimit (skip text) = .ok (v, rest) := by
  unfold read at h
  cases hv : value (2 * text.length + 2) depthLimit (skip text) with
  | error failure => cases failure <;> simp [hv, bind, Except.bind] at h
  | ok r =>
      obtain ⟨w, rest⟩ := r
      cases hr : skip rest with
      | nil =>
          simp only [hv, hr, bind, Except.bind, Except.ok.injEq] at h
          exact ⟨rest, h ▸ rfl⟩
      | cons c cs => simp [hv, hr, bind, Except.bind, stuckAt] at h

theorem number_ne_object (cs rest : List Char) (es : Entries Text.CodePoints Value) :
    number cs ≠ .ok (.object es, rest) := by
  intro h
  unfold number at h
  grind [stuckAt]

/-- What holds of no entries and is kept by writing a value that is read holds of an object that a
text spells. -/
theorem object_induction {P : Entries Text.CodePoints Value → Prop} (hnone : P [])
    (hput : ∀ {fuel left cs rest v}, value fuel left cs = .ok (v, rest) →
      ∀ {entries} key, P entries → P (entries.put key v))
    {text : List Char} {es : Entries Text.CodePoints Value} (h : read text = .ok (.object es)) :
    P es := by
  obtain ⟨rest, hvalue⟩ := exists_value_of_read h
  cases readAs_of_value hvalue with
  | noMembers => exact hnone
  | members _ hmembers => exact members_induction (fun _ _ _ _ _ hv => hput hv) hmembers hnone
  | constant word hword => simp [constants] at hword
  | number hnumber => exact absurd hnumber (number_ne_object _ _ _)

/-- An object that a text spells has no key twice. -/
theorem nodup_keys_read {text : List Char} {es : Entries Text.CodePoints Value}
    (h : read text = .ok (.object es)) : (Entries.keys es).Nodup :=
  object_induction (P := fun es => (Entries.keys es).Nodup) List.nodup_nil
    (fun _ _ key hn => Entries.nodup_keys_put hn key _) h

/-! ## Shown forms -/

/-- An integer is read only if its digits are not too many. -/
theorem isShowable_of_number {cs rest : List Char} {v : Value}
    (h : number cs = .ok (v, rest)) : v.isShowable = true := by
  unfold number at h
  split at h
  next negative unsigned _ =>
  dsimp only at h
  split at h
  · cases h
  · split at h
    · cases h
      rfl
    · split at h
      · cases h
        rfl
      · split at h
        · cases h
        · next hlength =>
          cases h
          exact isWritable_numeralValue (Nat.le_of_not_lt hlength) negative

/-- By induction on the fuel, since what lies in a value is read with less. -/
theorem isShowable_of_value {fuel left : Nat} {cs rest : List Char} {v : Value}
    (h : value fuel left cs = .ok (v, rest)) : v.isShowable = true := by
  induction fuel using Nat.strong_induction_on generalizing left cs rest v with
  | _ fuel ih =>
      have hconstants : ∀ c ∈ constants, c.2.isShowable = true := by decide
      cases readAs_of_value h with
      | text | noItems | noMembers => rfl
      | @items less _ _ _ _ hfuel hitems =>
          have hvs := forall_mem_items (P := (Value.isShowable · = true))
            (fun fewer hfewer _ _ _ hv => ih fewer (by omega) hv) hitems
          exact Value.areShowable_iff.mpr hvs
      | @members less _ _ _ _ hfuel hmembers =>
          have hes := members_induction (P := fun es => ∀ e ∈ es, e.2.isShowable = true)
            (fun fewer hfewer _ _ _ hv _ key hentries =>
              Entries.forall_mem_put (P := (Value.isShowable · = true)) hentries
                (ih fewer (by omega) hv) key)
            hmembers (List.forall_mem_nil _)
          exact Value.haveShowable_iff.mpr hes
      | constant word hword => exact hconstants _ hword
      | number hnumber => exact isShowable_of_number hnumber

/-- Every value that a text spells has a shown form. -/
theorem isShowable_of_read {text : List Char} {v : Value} (h : read text = .ok v) :
    v.isShowable = true := by
  obtain ⟨rest, hvalue⟩ := exists_value_of_read h
  exact isShowable_of_value hvalue

/-- A byte order mark starts no value. -/
theorem read_byteOrderMark (cs : List Char) : read ('\uFEFF' :: cs) = .error (.malformed 0) := by
  have hskip : skip ('\uFEFF' :: cs) = '\uFEFF' :: cs := by simp [skip, isSpace]
  have hconstant : constant? ('\uFEFF' :: cs) = none := by
    simp [constant?, constants, List.isPrefixOf?]
  have hnumber : number ('\uFEFF' :: cs) = .error (.malformed (cs.length + 1)) := by
    simp [number, wholeDigits, stuckAt]
  have hvalue (fuel : Nat) : value (fuel + 1) depthLimit ('\uFEFF' :: cs) =
      .error (.malformed (cs.length + 1)) := by
    simp [value, hconstant, hnumber]
  rw [read, hskip, hvalue]
  simp [bind, Except.bind]

end Json

end LabelPress.Settings
