import LabelPress.Entries
import Mathlib.Data.List.Induction
import Mathlib.Data.List.Nodup
import Mathlib.Data.List.Perm.Basic

/-!
# Writing many entries

Keys stay in the order in which they were first written, each once. Overwriting leaves the last
value of a key, and writing only what is new leaves the first.
-/

namespace LabelPress.Entries

variable {κ α β : Type} [DecidableEq κ]

omit [DecidableEq κ] in
theorem keys_append (es fs : Entries κ α) : keys (es ++ fs) = keys es ++ keys fs :=
  List.map_append

theorem get?_append (key : κ) (es fs : Entries κ α) :
    get? key (es ++ fs) = (get? key es).or (get? key fs) :=
  List.lookup_append

theorem get?_eq_none_iff {key : κ} {es : Entries κ α} : get? key es = none ↔ key ∉ keys es := by
  rw [← get?_isSome_iff, Bool.not_eq_true, Option.isSome_eq_false_iff, Option.isNone_iff_eq_none]

theorem exists_get?_iff {key : κ} {es : Entries κ α} :
    (∃ value, get? key es = some value) ↔ key ∈ keys es := by
  rw [← get?_isSome_iff, Option.isSome_iff_exists]

/-- With distinct keys, an entry is found under its key. -/
theorem mem_iff_get? {es : Entries κ α} (h : (keys es).Nodup) {key : κ} {value : α} :
    (key, value) ∈ es ↔ get? key es = some value := by
  induction es with
  | nil => simp
  | cons e rest ih =>
      obtain ⟨k, v⟩ := e
      obtain ⟨hk, hrest⟩ := List.nodup_cons.mp h
      rw [List.mem_cons, get?_cons, ih hrest]
      by_cases heq : k = key
      · subst heq
        have hnone : get? k rest = none := get?_eq_none_iff.mpr hk
        simp [hnone, eq_comm]
      · simp [heq, Ne.symm heq]

/-- With distinct keys, one entry stands under each key that has a value. -/
theorem filter_key_eq_singleton {es : Entries κ α} (h : (keys es).Nodup) {key : κ} {value : α}
    (hv : get? key es = some value) : es.filter (fun e => e.1 = key) = [(key, value)] := by
  induction es with
  | nil => cases hv
  | cons e rest ih =>
      obtain ⟨k, v⟩ := e
      obtain ⟨hk, hrest⟩ := List.nodup_cons.mp h
      rw [get?_cons] at hv
      by_cases heq : k = key
      · subst heq
        rw [if_pos rfl, Option.some.injEq] at hv
        subst hv
        have hnone : rest.filter (fun e => e.1 = k) = [] := by
          apply List.filter_eq_nil_iff.mpr
          intro e he hek
          have hkey : e.1 = k := of_decide_eq_true hek
          have hmem : e.1 ∈ keys rest := List.mem_map_of_mem he
          exact hk (hkey ▸ hmem)
        rw [List.filter_cons_of_pos (by simp), hnone]
      · rw [if_neg heq] at hv
        rw [List.filter_cons_of_neg (by simpa using heq), ih hrest hv]

/-- A key that has no value goes to the end. -/
theorem put_of_not_mem {key : κ} {es : Entries κ α} (h : key ∉ keys es) (value : α) :
    put key value es = es ++ [(key, value)] := by
  induction es with
  | nil => rfl
  | cons e rest ih =>
      obtain ⟨hne, hrest⟩ := not_or.mp (mt List.mem_cons.mpr h)
      rw [put, if_neg (Ne.symm hne), ih hrest, List.cons_append]

/-! ## Overwriting -/

theorem putAll_append (es others more : Entries κ α) :
    putAll es (others ++ more) = putAll (putAll es others) more :=
  List.foldl_append

theorem get?_putAll_of_not_mem {key : κ} {others : Entries κ α} (h : key ∉ keys others)
    (es : Entries κ α) : get? key (putAll es others) = get? key es := by
  induction others generalizing es with
  | nil => rfl
  | cons e rest ih =>
      obtain ⟨hne, hrest⟩ := not_or.mp (mt List.mem_cons.mpr h)
      change get? key (putAll (put e.1 e.2 es) rest) = _
      rw [ih hrest, get?_put, if_neg (Ne.symm hne)]

/-- Each key keeps the value that was written last. -/
theorem get?_putAll_of_last {key : κ} {later : Entries κ α} (h : key ∉ keys later)
    (es earlier : Entries κ α) (value : α) :
    get? key (putAll es (earlier ++ (key, value) :: later)) = some value := by
  rw [putAll_append]
  change get? key (putAll (put key value (putAll es earlier)) later) = _
  rw [get?_putAll_of_not_mem h, get?_put, if_pos rfl]

/-- Entries with distinct keys go before what they are written over. -/
theorem get?_putAll {others : Entries κ α} (h : (keys others).Nodup) (key : κ)
    (es : Entries κ α) : get? key (putAll es others) = (get? key others).or (get? key es) := by
  induction others generalizing es with
  | nil => rfl
  | cons e rest ih =>
      obtain ⟨hk, hrest⟩ := List.nodup_cons.mp h
      change get? key (putAll (put e.1 e.2 es) rest) = _
      rw [ih hrest, get?_put, get?_cons]
      by_cases heq : e.1 = key
      · have hnone : get? key rest = none := get?_eq_none_iff.mpr (heq ▸ hk)
        simp [heq, hnone]
      · simp [heq]

/-- A key that has a value has been written, and that value last. -/
theorem exists_last_of_get?_putAll {key : κ} {value : α} {others : Entries κ α}
    (h : get? key (putAll [] others) = some value) :
    ∃ earlier later, others = earlier ++ (key, value) :: later ∧ key ∉ keys later := by
  induction others using List.reverseRecOn with
  | nil => cases h
  | append_singleton others e ih =>
      obtain ⟨k, v⟩ := e
      rw [putAll_append] at h
      change get? key (put k v (putAll [] others)) = _ at h
      rw [get?_put] at h
      by_cases hk : k = key
      · subst hk
        rw [if_pos rfl, Option.some.injEq] at h
        subst h
        exact ⟨others, [], rfl, List.not_mem_nil⟩
      · rw [if_neg hk] at h
        obtain ⟨earlier, later, rfl, hl⟩ := ih h
        refine ⟨earlier, later ++ [(k, v)], by simp, ?_⟩
        rw [keys_append, List.mem_append, not_or]
        exact ⟨hl, by simpa [keys] using Ne.symm hk⟩

/-- A key that comes last is kept if it has not come before. -/
theorem eraseDups_concat (ks : List κ) (key : κ) :
    (ks ++ [key]).eraseDups = if key ∈ ks then ks.eraseDups else ks.eraseDups ++ [key] := by
  rw [List.eraseDups_append]
  by_cases hk : key ∈ ks
  · have hold : [key].removeAll ks = [] := by simp [List.removeAll, hk]
    rw [if_pos hk, hold, List.eraseDups_nil, List.append_nil]
  · have hnew : [key].removeAll ks = [key] := by simp [List.removeAll, hk]
    rw [if_neg hk, hnew]
    rfl

/-- Written entries have the keys of their first writings, in that order. -/
theorem keys_putAll (others : Entries κ α) : keys (putAll [] others) = (keys others).eraseDups := by
  induction others using List.reverseRecOn with
  | nil => rfl
  | append_singleton others e ih =>
      obtain ⟨k, v⟩ := e
      rw [putAll_append]
      change keys (put k v (putAll [] others)) = _
      rw [keys_put, ih, keys_append]
      simp only [List.mem_eraseDups]
      exact (eraseDups_concat (keys others) k).symm

theorem nodup_keys_put {es : Entries κ α} (h : (keys es).Nodup) (key : κ) (value : α) :
    (keys (put key value es)).Nodup := by
  rw [keys_put]
  split
  · exact h
  · next hk => exact List.nodup_append'.mpr ⟨h, List.nodup_singleton key, by simpa using hk⟩

/-- No key is written twice. -/
theorem nodup_keys_putAll {es : Entries κ α} (h : (keys es).Nodup) (others : Entries κ α) :
    (keys (putAll es others)).Nodup := by
  induction others generalizing es with
  | nil => exact h
  | cons e rest ih => exact ih (nodup_keys_put h e.1 e.2)

/-- What holds of all values and of one that is written holds of all values after it. -/
theorem forall_mem_put {P : α → Prop} {es : Entries κ α} (h : ∀ e ∈ es, P e.2) {value : α}
    (hvalue : P value) (key : κ) : ∀ e ∈ put key value es, P e.2 := by
  induction es with
  | nil => simpa [put] using hvalue
  | cons e rest ih =>
      obtain ⟨hfirst, hrest⟩ := List.forall_mem_cons.mp h
      rw [put]
      split
      · exact List.forall_mem_cons.mpr ⟨hvalue, hrest⟩
      · exact List.forall_mem_cons.mpr ⟨hfirst, ih hrest⟩

theorem forall_mem_putAll {P : α → Prop} {es others : Entries κ α} (h : ∀ e ∈ es, P e.2)
    (hothers : ∀ e ∈ others, P e.2) : ∀ e ∈ putAll es others, P e.2 := by
  induction others generalizing es with
  | nil => exact h
  | cons e rest ih =>
      obtain ⟨hfirst, hrest⟩ := List.forall_mem_cons.mp hothers
      exact ih (forall_mem_put h hfirst e.1) hrest

/-- What holds of all values holds of the value of a key. -/
theorem holds_of_get? {P : α → Prop} {es : Entries κ α} (h : ∀ e ∈ es, P e.2) {key : κ} {value : α}
    (hvalue : get? key es = some value) : P value := by
  induction es with
  | nil => cases hvalue
  | cons e rest ih =>
      obtain ⟨hfirst, hrest⟩ := List.forall_mem_cons.mp h
      rw [get?_cons] at hvalue
      split at hvalue
      · exact Option.some.inj hvalue ▸ hfirst
      · exact ih hrest hvalue

/-- Writing the value that a key has changes nothing. -/
theorem put_self {key : κ} {value : α} {es : Entries κ α} (h : get? key es = some value) :
    put key value es = es := by
  induction es with
  | nil => cases h
  | cons e rest ih =>
      obtain ⟨k, v⟩ := e
      rw [get?_cons] at h
      rw [put]
      split
      · next hk =>
        rw [if_pos hk, Option.some.injEq] at h
        rw [hk, h]
      · next hk => rw [ih (by rwa [if_neg hk] at h)]

/-- Distinct keys that have no value yet go to the end in their order. -/
theorem keys_putAll_of_nodup {others : Entries κ α} (h : (keys others).Nodup)
    (es : Entries κ α) :
    keys (putAll es others) = keys es ++ (keys others).filter fun k => k ∉ keys es := by
  induction others generalizing es with
  | nil => exact (List.append_nil _).symm
  | cons e rest ih =>
      obtain ⟨hk, hrest⟩ := List.nodup_cons.mp h
      change keys (putAll (put e.1 e.2 es) rest) =
        keys es ++ (e.1 :: keys rest).filter fun k => k ∉ keys es
      rw [ih hrest, keys_put]
      by_cases hmem : e.1 ∈ keys es
      · rw [if_pos hmem, List.filter_cons_of_neg (by simpa using hmem)]
      · rw [if_neg hmem, List.filter_cons_of_pos (by simpa using hmem), List.append_assoc,
          List.singleton_append]
        congr 2
        apply List.filter_congr
        intro k hkrest
        have hne : k ≠ e.1 := fun heq => hk (heq ▸ hkrest)
        simp [hne]

/-- What is written under one key leaves the other entries and their order. -/
theorem filter_put {p : κ → Bool} {key : κ} (h : p key = false) (value : α) (es : Entries κ α) :
    (put key value es).filter (fun e => p e.1) = es.filter fun e => p e.1 := by
  induction es with
  | nil => simp [put, h]
  | cons e rest ih =>
      obtain ⟨k, v⟩ := e
      rw [put]
      split
      · next hk => simp [hk, h]
      · rw [List.filter_cons, List.filter_cons, ih]

theorem filter_putAll {p : κ → Bool} {others : Entries κ α}
    (h : ∀ key ∈ keys others, p key = false) (es : Entries κ α) :
    (putAll es others).filter (fun e => p e.1) = es.filter fun e => p e.1 := by
  induction others generalizing es with
  | nil => rfl
  | cons e rest ih =>
      obtain ⟨hkey, hrest⟩ := List.forall_mem_cons.mp h
      change (putAll (put e.1 e.2 es) rest).filter (fun e => p e.1) = _
      rw [ih hrest, filter_put hkey]

/-! ## Writing only what is new -/

/-- The entries with those of others whose keys have no value yet. -/
def putAllNew (es others : Entries κ α) : Entries κ α :=
  others.foldl (fun es e => putNew e.1 e.2 es) es

theorem get?_putNew (key k : κ) (value : α) (es : Entries κ α) :
    get? k (putNew key value es) = (get? k es).or (if key = k then some value else none) := by
  rw [putNew]
  split
  · next h =>
    by_cases hk : key = k
    · subst hk
      obtain ⟨v, hv⟩ := Option.isSome_iff_exists.mp h
      rw [hv, Option.some_or]
    · rw [if_neg hk, Option.or_none]
  · rw [get?_append]
    simp

/-- Each key keeps the value that was written first. -/
theorem get?_putAllNew (key : κ) (es others : Entries κ α) :
    get? key (putAllNew es others) = (get? key es).or (get? key others) := by
  induction others generalizing es with
  | nil => simp [putAllNew]
  | cons e rest ih =>
      change get? key (putAllNew (putNew e.1 e.2 es) rest) = _
      rw [ih, get?_putNew, get?_cons, Option.or_assoc]
      split <;> simp

theorem nodup_keys_putNew {es : Entries κ α} (h : (keys es).Nodup) (key : κ) (value : α) :
    (keys (putNew key value es)).Nodup := by
  rw [putNew]
  split
  · exact h
  · next hk =>
    rw [get?_isSome_iff] at hk
    rw [keys_append]
    exact List.nodup_append'.mpr ⟨h, List.nodup_singleton key, by simpa [keys] using hk⟩

theorem nodup_keys_putAllNew {es : Entries κ α} (h : (keys es).Nodup) (others : Entries κ α) :
    (keys (putAllNew es others)).Nodup := by
  induction others generalizing es with
  | nil => exact h
  | cons e rest ih =>
      exact ih (nodup_keys_putNew h e.1 e.2)

theorem keys_putNew (key : κ) (value : α) (es : Entries κ α) :
    keys (putNew key value es) = if key ∈ keys es then keys es else keys es ++ [key] := by
  simp only [putNew, get?_isSome_iff]
  split
  · rfl
  · exact keys_append es [(key, value)]

/-- Entries of which only what is new is written have the same keys as if all were written. -/
theorem keys_putAllNew (others : Entries κ α) :
    keys (putAllNew [] others) = (keys others).eraseDups := by
  induction others using List.reverseRecOn with
  | nil => rfl
  | append_singleton others e ih =>
      rw [putAllNew, List.foldl_append]
      change keys (putNew e.1 e.2 (putAllNew [] others)) = _
      rw [keys_putNew, ih, keys_append]
      simp only [List.mem_eraseDups]
      exact (eraseDups_concat (keys others) e.1).symm

/-! ## Other values under the same keys -/

/-- The entries with each value replaced by what a function makes of it. -/
def mapValues (f : α → β) (es : Entries κ α) : Entries κ β := es.map fun e => (e.1, f e.2)

omit [DecidableEq κ] in
theorem keys_mapValues (f : α → β) (es : Entries κ α) : keys (mapValues f es) = keys es := by
  rw [keys, mapValues, List.map_map]
  rfl

theorem get?_mapValues (f : α → β) (key : κ) (es : Entries κ α) :
    get? key (mapValues f es) = (get? key es).map f := by
  induction es with
  | nil => rfl
  | cons e rest ih =>
      change get? key ((e.1, f e.2) :: mapValues f rest) = _
      rw [get?_cons, get?_cons, ih]
      split <;> rfl

theorem put_mapValues (f : α → β) (key : κ) (value : α) (es : Entries κ α) :
    put key (f value) (mapValues f es) = mapValues f (put key value es) := by
  induction es with
  | nil => rfl
  | cons e rest ih =>
      change put key (f value) ((e.1, f e.2) :: mapValues f rest) = _
      rw [put, put]
      split
      · rfl
      · rw [ih]
        rfl

theorem putAll_mapValues (f : α → β) (es others : Entries κ α) :
    putAll (mapValues f es) (mapValues f others) = mapValues f (putAll es others) := by
  induction others generalizing es with
  | nil => rfl
  | cons e rest ih =>
      change putAll (put e.1 (f e.2) (mapValues f es)) (mapValues f rest) = _
      rw [put_mapValues, ih]
      rfl

theorem putNew_mapValues (f : α → β) (key : κ) (value : α) (es : Entries κ α) :
    putNew key (f value) (mapValues f es) = mapValues f (putNew key value es) := by
  rw [putNew, putNew, get?_mapValues, Option.isSome_map]
  split
  · rfl
  · simp [mapValues]

theorem putAllNew_mapValues (f : α → β) (es others : Entries κ α) :
    putAllNew (mapValues f es) (mapValues f others) = mapValues f (putAllNew es others) := by
  induction others generalizing es with
  | nil => rfl
  | cons e rest ih =>
      change putAllNew (putNew e.1 (f e.2) (mapValues f es)) (mapValues f rest) = _
      rw [putNew_mapValues, ih]
      rfl

/-! ## Counting keys -/

/-- Entries are counted by their keys. -/
theorem countP_eq_countP_keys {es : Entries κ α} (h : (keys es).Nodup) (p : κ → α → Bool) :
    es.countP (fun e => p e.1 e.2) = (keys es).countP fun k => (get? k es).any (p k) := by
  rw [keys, List.countP_map]
  apply List.countP_congr
  intro e he
  have hget : get? e.1 es = some e.2 := (mem_iff_get? h).mp he
  simp [hget]

omit [DecidableEq κ] in
/-- Two tables have equally many keys that pass a test if the test passes no key that only one of
them has. -/
theorem countP_keys_congr {β : Type} {es : Entries κ α} {fs : Entries κ β} (he : (keys es).Nodup)
    (hf : (keys fs).Nodup) {p : κ → Bool} (h : ∀ k, p k = true → (k ∈ keys es ↔ k ∈ keys fs)) :
    (keys es).countP p = (keys fs).countP p := by
  have hperm : ((keys es).filter p).Perm ((keys fs).filter p) := by
    apply (List.perm_ext_iff_of_nodup (he.filter p) (hf.filter p)).mpr
    intro k
    simp only [List.mem_filter, and_congr_left_iff]
    exact h k
  rw [List.countP_eq_length_filter, List.countP_eq_length_filter, hperm.length_eq]

end LabelPress.Entries
