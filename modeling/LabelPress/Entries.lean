/-!
# Entries in order of insertion

A list of keys with their values. A new key goes to the end, and a key that is written again keeps
its place. The lemmas say what writing does to the value of each key and to the keys.
-/

namespace LabelPress

/-- Keys with their values, in the order in which the keys were first written. -/
abbrev Entries (κ α : Type) := List (κ × α)

namespace Entries

variable {κ α : Type} [DecidableEq κ]

/-- The value of a key. -/
def get? (key : κ) (es : Entries κ α) : Option α := es.lookup key

@[simp] theorem get?_nil (key : κ) : get? key ([] : Entries κ α) = none := rfl

@[simp] theorem get?_cons (key k : κ) (v : α) (rest : Entries κ α) :
    get? key ((k, v) :: rest) = if k = key then some v else get? key rest := by
  by_cases h : k = key
  · simp [get?, h]
  · simp [get?, List.lookup_cons, h, beq_eq_false_iff_ne.2 (Ne.symm h)]

/-- The entries with a value written under a key. -/
def put (key : κ) (value : α) : Entries κ α → Entries κ α
  | [] => [(key, value)]
  | (k, v) :: rest => if k = key then (key, value) :: rest else (k, v) :: put key value rest

/-- The entries with a value written under a key that has none. -/
def putNew (key : κ) (value : α) (es : Entries κ α) : Entries κ α :=
  if (get? key es).isSome then es else es ++ [(key, value)]

/-- The entries with others written over them one by one. -/
def putAll (es others : Entries κ α) : Entries κ α :=
  others.foldl (fun es e => put e.1 e.2 es) es

/-- The keys in order. -/
def keys (es : Entries κ α) : List κ := es.map Prod.fst

@[simp] theorem get?_put (key k : κ) (value : α) (es : Entries κ α) :
    get? k (put key value es) = if key = k then some value else get? k es := by
  induction es with
  | nil => simp [put]
  | cons e rest ih =>
    obtain ⟨k', v⟩ := e
    by_cases h : k' = key
    · subst h
      by_cases hk : k' = k <;> simp [put, hk]
    · by_cases hk : k' = k
      · subst hk
        simp [put, h, Ne.symm h]
      · simp [put, h, hk, ih]

theorem get?_isSome_iff {key : κ} {es : Entries κ α} :
    (get? key es).isSome = true ↔ key ∈ keys es := by
  induction es with
  | nil => simp [keys]
  | cons e rest ih =>
    obtain ⟨k, v⟩ := e
    by_cases h : k = key
    · simp [keys, h]
    · simp only [get?_cons, h, if_false, ih, keys, List.map_cons, List.mem_cons]
      exact ⟨Or.inr, fun hk => hk.resolve_left (Ne.symm h)⟩

theorem keys_put (key : κ) (value : α) (es : Entries κ α) :
    keys (put key value es) = if key ∈ keys es then keys es else keys es ++ [key] := by
  induction es with
  | nil => simp [put, keys]
  | cons e rest ih =>
    obtain ⟨k, v⟩ := e
    by_cases h : k = key
    · simp [put, keys, h]
    · simp only [put, h, if_false]
      show k :: keys (put key value rest) = _
      rw [ih]
      have hk : key ∈ keys ((k, v) :: rest) ↔ key ∈ keys rest := by
        simp [keys, Ne.symm h]
      by_cases hm : key ∈ keys rest <;> simp [hk, hm] <;> simp [keys]

end Entries

end LabelPress
