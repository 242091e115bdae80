import LabelPress.Proofs.Command.Markup
import LabelPress.Proofs.Rasterizer.Order
import LabelPress.Rasterizer.Selection

/-!
# Falling back

The tool and the library are described by what they need and how they end, apart from the faults
that they come to. A place of a chain gives data, fails, or refuses: the tool cannot be ordered to
draw a document that is not of characters or at a size that cannot be written, and a chain does not
handle that. The first place that does not fail decides a chain, and no folder is left.
-/

namespace LabelPress.Rasterizer

open LabelPress.Number LabelPress.Settings

/-- A document of characters, to be drawn at a size that can be written. -/
structure Deliverable (r : Request) : Prop where
  document : r.document.toString?.isSome = true
  width : isWritable r.width = true
  height : isWritable r.height = true

namespace Machine

/-- A rasterizer gives data: the tool is found, ends with code zero and leaves a file, which may be
empty; the library is loaded and draws at least one byte. -/
def Succeeds (m : Machine) (r : Request) (bytes : List UInt8) : Known → Prop
  | .rsvgConvert => m.tool.found = true ∧ ∃ order, m.tool.order m.folder r = .ok order ∧
      ∃ output errors, m.tool.run order.2 order.1 = .exited 0 output errors (some bytes)
  | .cairo => r.document.toString?.isSome = true ∧ bytes ≠ [] ∧
      ∃ draw, m.library = .loaded draw ∧ draw r CairoLibrary.ground = .ok bytes

/-- The tool is there, and cannot be ordered to draw. -/
def Refuses (m : Machine) (r : Request) : Known → Prop
  | .rsvgConvert => m.tool.found = true ∧ ¬ Deliverable r
  | .cairo => False

/-- A rasterizer neither gives data nor refuses. -/
def Fails (m : Machine) (r : Request) (k : Known) : Prop :=
  ¬ m.Refuses r k ∧ ∀ bytes, ¬ m.Succeeds r bytes k

end Machine

/-! ## The tool -/

namespace RsvgConvert

variable {tool : RsvgConvert} {folder : String} {r : Request} {fault : Fault}

/-- An order is made of a request that can be delivered. -/
theorem exists_order_of_deliverable (h : Deliverable r) :
    ∃ order, tool.order folder r = .ok order := by
  obtain ⟨text, htext⟩ := Option.isSome_iff_exists.mp h.document
  simp [order, Request.characters, command, writeInteger, htext, h.width, h.height, bind,
    Except.bind, pure, Except.pure]

/-- No order is made of any other request, and a chain does not handle that. -/
theorem order_of_not_deliverable (h : ¬ Deliverable r) :
    ∃ fault, tool.order folder r = .error fault ∧ failureEntry? name fault = none := by
  cases hd : r.document.toString? with
  | none =>
      refine ⟨.noCharacters r.document.firstHalves, ?_, rfl⟩
      simp [order, Request.characters, hd, bind, Except.bind]
  | some text =>
      refine ⟨.integerTooLong, ?_, rfl⟩
      cases hw : isWritable r.width with
      | false =>
          simp [order, Request.characters, command, writeInteger, hd, hw, bind, Except.bind]
      | true =>
          have hh : isWritable r.height = false := by
            rw [Bool.eq_false_iff]
            exact fun hh => h ⟨by rw [hd]; rfl, hw, hh⟩
          simp [order, Request.characters, command, writeInteger, hd, hw, hh, bind, Except.bind]

theorem dataOf_eq_ok_iff {command : List String} {e : ToolEnd} {bytes : List UInt8} :
    tool.dataOf command e = .ok bytes ↔
      ∃ output errors, e = .exited 0 output errors (some bytes) := by
  cases e with
  | notStarted fault => simp [dataOf]
  | timedOut => simp [dataOf]
  | exited code output errors file =>
      by_cases hcode : code = 0
      · cases file <;> simp [dataOf, hcode]
      · simp [dataOf, hcode]

/-- However the tool ends without data, the next rasterizer may try. -/
theorem failureEntry?_of_dataOf {command : List String} {e : ToolEnd}
    (h : tool.dataOf command e = .error fault) :
    ∃ entry, failureEntry? name fault = some entry := by
  cases e with
  | notStarted _ | timedOut => cases h; exact ⟨_, rfl⟩
  | exited code output errors file =>
      by_cases hcode : code = 0
      · cases file with
        | none =>
            simp only [dataOf, hcode, ne_eq, not_true_eq_false, if_false] at h
            cases h
            exact ⟨_, rfl⟩
        | some bytes => simp [dataOf, hcode] at h
      · simp only [dataOf, ne_eq, hcode, not_false_eq_true, if_true] at h
        cases h
        exact ⟨_, rfl⟩

end RsvgConvert

/-! ## The library -/

namespace CairoLibrary

theorem dataOf_eq_ok_iff {drawn : Except String (List UInt8)} {bytes : List UInt8} :
    dataOf drawn = .ok bytes ↔ bytes ≠ [] ∧ drawn = .ok bytes := by
  cases drawn with
  | error reason => simp [dataOf]
  | ok drawn =>
      cases drawn with
      | nil => simp +contextual [dataOf, eq_comm]
      | cons b rest => simp +contextual [dataOf, eq_comm]

theorem failureEntry?_of_dataOf {drawn : Except String (List UInt8)} {fault : Fault}
    (h : dataOf drawn = .error fault) : ∃ entry, failureEntry? name fault = some entry := by
  cases drawn with
  | error reason => cases h; exact ⟨_, rfl⟩
  | ok drawn =>
      cases drawn with
      | nil => cases h; exact ⟨_, rfl⟩
      | cons b rest => cases h

end CairoLibrary

/-! ## One place -/

namespace Machine

variable {m : Machine} {r : Request} {k : Known}

@[simp] theorem name_rasterizer (m : Machine) (k : Known) : (m.rasterizer k).name = k.name := by
  cases k with
  | rsvgConvert => rfl
  | cairo => cases h : m.library <;> simp [rasterizer, CairoLibrary.rasterizer, h, Known.name]

/-- The data of a place are those with which its rasterizer succeeds. -/
theorem result_eq_ok_iff {bytes : List UInt8} :
    ((m.rasterizer k).rasterize r).result = .ok bytes ↔ m.Succeeds r bytes k := by
  cases k with
  | rsvgConvert =>
      simp only [rasterizer, RsvgConvert.rasterizer, Succeeds]
      cases m.tool.found with
      | false => simp [Work.of]
      | true => cases ho : m.tool.order m.folder r <;> simp [RsvgConvert.dataOf_eq_ok_iff]
  | cairo =>
      simp only [rasterizer, CairoLibrary.rasterizer, Succeeds, Request.characters]
      cases m.library with
      | unusable reason => simp [Work.of]
      | loaded draw =>
          cases hd : r.document.toString? <;> simp [hd, CairoLibrary.dataOf_eq_ok_iff, Work.of]

/-- A tool that refuses comes to a fault that a chain does not handle. -/
theorem exists_unhandled_of_refuses (h : m.Refuses r k) :
    ∃ fault, ((m.rasterizer k).rasterize r).result = .error fault ∧
      failureEntry? k.name fault = none := by
  cases k with
  | rsvgConvert =>
      obtain ⟨hfound, hd⟩ := h
      obtain ⟨fault, ho, hfault⟩ := @RsvgConvert.order_of_not_deliverable m.tool m.folder r hd
      exact ⟨fault, by simp [rasterizer, RsvgConvert.rasterizer, hfound, ho], hfault⟩
  | cairo => exact h.elim

/-- Every other fault lets the next rasterizer try. -/
theorem handled_of_not_refuses (h : ¬ m.Refuses r k) {fault : Fault}
    (hfault : ((m.rasterizer k).rasterize r).result = .error fault) :
    ∃ entry, failureEntry? k.name fault = some entry := by
  cases k with
  | rsvgConvert =>
      simp only [rasterizer, RsvgConvert.rasterizer] at hfault
      cases hf : m.tool.found with
      | false =>
          simp only [hf] at hfault
          cases hfault
          exact ⟨_, rfl⟩
      | true =>
          have hd : Deliverable r := Classical.not_not.mp fun hd => h ⟨hf, hd⟩
          obtain ⟨order, ho⟩ := @RsvgConvert.exists_order_of_deliverable m.tool m.folder r hd
          simp only [hf, if_true, ho] at hfault
          exact RsvgConvert.failureEntry?_of_dataOf hfault
  | cairo =>
      simp only [rasterizer, CairoLibrary.rasterizer] at hfault
      cases hl : m.library with
      | unusable reason =>
          simp only [hl] at hfault
          cases hfault
          exact ⟨_, rfl⟩
      | loaded draw =>
          simp only [hl] at hfault
          split at hfault
          · cases hfault
            exact ⟨_, rfl⟩
          · exact CairoLibrary.failureEntry?_of_dataOf hfault

/-- A place fails exactly if its rasterizer does in a chain. -/
theorem exists_fails_rasterizer_iff :
    (∃ text, (m.rasterizer k).Fails r text) ↔ m.Fails r k := by
  rw [exists_fails_iff, name_rasterizer]
  constructor
  · rintro ⟨fault, entry, hr, hentry⟩
    refine ⟨fun hrefuses => ?_, fun bytes hs => ?_⟩
    · obtain ⟨other, hother, hnone⟩ := exists_unhandled_of_refuses hrefuses
      rw [hr, Except.error.injEq] at hother
      rw [hother, hnone] at hentry
      cases hentry
    · rw [result_eq_ok_iff.mpr hs] at hr
      cases hr
  · intro h
    cases hr : ((m.rasterizer k).rasterize r).result with
    | ok bytes => exact absurd (result_eq_ok_iff.mp hr) (h.2 bytes)
    | error fault =>
        obtain ⟨entry, hentry⟩ := handled_of_not_refuses h.1 hr
        exact ⟨fault, entry, rfl, hentry⟩

/-- A place that comes to a fault and does not fail is a tool that refuses. -/
theorem refuses_of_not_fails (h : ¬ m.Fails r k) {fault : Fault}
    (hr : ((m.rasterizer k).rasterize r).result = .error fault) : m.Refuses r k := by
  by_contra hrefuses
  refine h ⟨hrefuses, fun bytes hs => ?_⟩
  rw [result_eq_ok_iff.mpr hs] at hr
  cases hr

/-- A place leaves no folder, however it ends. -/
theorem foldersLeft_rasterize (m : Machine) (k : Known) (r : Request) :
    Deed.foldersLeft ((m.rasterizer k).rasterize r).deeds = [] := by
  cases k with
  | rsvgConvert =>
      simp only [rasterizer, RsvgConvert.rasterizer]
      split
      · split <;> simp [Deed.foldersLeft, Deed.foldersAfter]
      · rfl
  | cairo =>
      simp only [rasterizer, CairoLibrary.rasterizer]
      cases m.library with
      | unusable reason => rfl
      | loaded draw => dsimp only; split <;> rfl

end Machine

/-! ## One place after the other -/

section Asking

variable {δ : Type} {r : Request}

/-- Deeds after which no folder is left add none to others. -/
theorem foldersLeft_append {deeds others : List Deed} (h : Deed.foldersLeft deeds = []) :
    Deed.foldersLeft (deeds ++ others) = Deed.foldersLeft others := by
  simp only [Deed.foldersLeft, List.foldl_append] at h ⊢
  rw [h]

/-- What holds of the deeds of each place, and of deeds one after the other, holds of asking. -/
theorem askFrom_induction {P : List Deed → Prop} {ss : List (Rasterizer δ)} (hnil : P [])
    (happend : ∀ {deeds others}, P deeds → P others → P (deeds ++ others))
    (h : ∀ s ∈ ss, P (s.rasterize r).deeds) (failures : List String) :
    P (askFrom r failures ss).deeds := by
  induction ss generalizing failures with
  | nil => exact hnil
  | cons s rest ih =>
      have hs := h s List.mem_cons_self
      by_cases hstands : s.Stands r
      · rw [(askFrom_cons_of_stands hstands failures rest).1]
        exact hs
      · obtain ⟨text, htext⟩ := Classical.not_forall_not.mp hstands
        rw [(askFrom_cons_of_fails htext failures rest).1]
        exact happend hs (ih (fun s hrest => h s (List.mem_cons_of_mem _ hrest)) _)

/-- If no place leaves a folder, asking them leaves none. -/
theorem foldersLeft_askFrom {ss : List (Rasterizer δ)}
    (h : ∀ s ∈ ss, Deed.foldersLeft (s.rasterize r).deeds = []) (failures : List String) :
    Deed.foldersLeft (askFrom r failures ss).deeds = [] :=
  askFrom_induction (P := fun deeds => Deed.foldersLeft deeds = []) rfl
    (fun hdeeds hothers => (foldersLeft_append hdeeds).trans hothers) h failures

end Asking

/-- A place of a chain that is reached, since all places before it fail. Each place has a machine of
its own, for a tool need not end again as it did before. -/
def Reached (machines : Nat → Machine) (r : Request) (ks : List Known) (i : Nat) (k : Known) :
    Prop :=
  ks[i]? = some k ∧ ∀ j < i, ∀ k, ks[j]? = some k → (machines j).Fails r k

variable {machines : Nat → Machine} {r : Request} {ks : List Known} {i j : Nat} {k l : Known}

theorem Reached.succ (hk : (machines 0).Fails r k)
    (h : Reached (fun i => machines (i + 1)) r ks i l) :
    Reached machines r (k :: ks) (i + 1) l := by
  refine ⟨h.1, fun j hj k' hk' => ?_⟩
  cases j with
  | zero =>
      obtain rfl : k = k' := Option.some.inj hk'
      exact hk
  | succ j => exact h.2 j (Nat.lt_of_succ_lt_succ hj) k' hk'

/-- Only one place that is reached does not fail. -/
theorem Reached.unique (hi : Reached machines r ks i k) (hif : ¬ (machines i).Fails r k)
    (hj : Reached machines r ks j l) (hjf : ¬ (machines j).Fails r l) : i = j ∧ k = l := by
  obtain hlt | rfl | hlt := Nat.lt_trichotomy i j
  · exact absurd (hj.2 i hlt k hi.1) hif
  · exact ⟨rfl, Option.some.inj (hi.1.symm.trans hj.1)⟩
  · exact absurd (hi.2 j hlt l hj.1) hjf

/-- The first place that does not fail decides, or all of them fail. -/
theorem askFrom_cases (machines : Nat → Machine) (r : Request) (failures : List String)
    (ks : List Known) :
    (∃ i k, Reached machines r ks i k ∧ ¬ (machines i).Fails r k ∧
        (askFrom r failures (ks.mapIdx fun i => (machines i).rasterizer)).result =
          (((machines i).rasterizer k).rasterize r).result) ∨
      (∀ i k, ks[i]? = some k → (machines i).Fails r k) ∧
        ∃ detail, (askFrom r failures (ks.mapIdx fun i => (machines i).rasterizer)).result =
          .error (.rasterizationFailed detail) := by
  induction ks generalizing machines failures with
  | nil => exact Or.inr ⟨nofun, _, rfl⟩
  | cons k rest ih =>
      rw [List.mapIdx_cons]
      by_cases hk : (machines 0).Fails r k
      · obtain ⟨text, htext⟩ := Machine.exists_fails_rasterizer_iff.mpr hk
        rw [(askFrom_cons_of_fails htext _ _).2]
        rcases ih (fun i => machines (i + 1)) _ with ⟨i, l, hl, hlf, heq⟩ | ⟨hall, detail, heq⟩
        · exact Or.inl ⟨i + 1, l, hl.succ hk, hlf, heq⟩
        · refine Or.inr ⟨fun i l hl => ?_, detail, heq⟩
          cases i with
          | zero =>
              obtain rfl : k = l := Option.some.inj hl
              exact hk
          | succ i => exact hall i l hl
      · have hstands : ((machines 0).rasterizer k).Stands r := fun text htext =>
          hk (Machine.exists_fails_rasterizer_iff.mp ⟨text, htext⟩)
        exact Or.inl ⟨0, k, ⟨rfl, nofun⟩, hk, (askFrom_cons_of_stands hstands _ _).2⟩

section Outcomes

variable {failures : List String}

/-- Data come from the first place that does not fail. -/
theorem result_askFrom_eq_ok_iff {bytes : List UInt8} :
    (askFrom r failures (ks.mapIdx fun i => (machines i).rasterizer)).result = .ok bytes ↔
      ∃ i k, Reached machines r ks i k ∧ (machines i).Succeeds r bytes k := by
  rcases askFrom_cases machines r failures ks with ⟨i, k, hk, hkf, heq⟩ | ⟨hall, detail, heq⟩
  · rw [heq, Machine.result_eq_ok_iff]
    refine ⟨fun hs => ⟨i, k, hk, hs⟩, fun ⟨j, l, hl, hs⟩ => ?_⟩
    obtain ⟨rfl, rfl⟩ := hk.unique hkf hl fun hlf => hlf.2 bytes hs
    exact hs
  · rw [heq]
    exact ⟨nofun, fun ⟨i, k, hk, hs⟩ => absurd hs ((hall i k hk.1).2 bytes)⟩

/-- A place at which the tool refuses, if it is reached, ends the chain. -/
theorem exists_unhandled_askFrom_iff :
    (∃ fault, (askFrom r failures (ks.mapIdx fun i => (machines i).rasterizer)).result =
        .error fault ∧ ∀ detail, fault ≠ .rasterizationFailed detail) ↔
      ∃ i k, Reached machines r ks i k ∧ (machines i).Refuses r k := by
  rcases askFrom_cases machines r failures ks with ⟨i, k, hk, hkf, heq⟩ | ⟨hall, detail, heq⟩
  · rw [heq]
    constructor
    · rintro ⟨fault, hr, -⟩
      exact ⟨i, k, hk, Machine.refuses_of_not_fails hkf hr⟩
    · rintro ⟨j, l, hl, hrefuses⟩
      obtain ⟨rfl, rfl⟩ := hk.unique hkf hl fun hlf => hlf.1 hrefuses
      obtain ⟨fault, hr, hnone⟩ := Machine.exists_unhandled_of_refuses hrefuses
      refine ⟨fault, hr, fun detail hdetail => ?_⟩
      rw [hdetail] at hnone
      cases hnone
  · rw [heq]
    constructor
    · rintro ⟨fault, hr, hother⟩
      exact absurd (Except.error.inj hr).symm (hother detail)
    · rintro ⟨i, k, hk, hrefuses⟩
      exact absurd hrefuses (hall i k hk.1).1

/-- A chain fails exactly if all of its places do. -/
theorem exists_failed_askFrom_iff :
    (∃ detail, (askFrom r failures (ks.mapIdx fun i => (machines i).rasterizer)).result =
        .error (.rasterizationFailed detail)) ↔
      ∀ i k, ks[i]? = some k → (machines i).Fails r k := by
  rcases askFrom_cases machines r failures ks with ⟨i, k, hk, hkf, heq⟩ | ⟨hall, detail, heq⟩
  · refine ⟨fun ⟨detail, hr⟩ => ?_, fun hall => absurd (hall i k hk.1) hkf⟩
    rw [heq] at hr
    obtain ⟨fault, hfault, hnone⟩ :=
      Machine.exists_unhandled_of_refuses (Machine.refuses_of_not_fails hkf hr)
    rw [hr, Except.error.injEq] at hfault
    rw [← hfault] at hnone
    cases hnone
  · exact ⟨fun _ => hall, fun _ => ⟨detail, heq⟩⟩

end Outcomes

/-! ## Chains -/

theorem ofValue_name (k : Known) : Known.ofValue (.text k.name) = .ok k := by
  cases k <;> rfl

/-- A list of names selects the rasterizers of these names. -/
theorem select_names (ks : List Known) :
    Known.select (.list (ks.map fun k => .text k.name)) = .ok ks :=
  Command.mapM_map_eq_ok fun k _ => ofValue_name k

/-- Names of known rasterizers make a chain that asks them in their order. -/
theorem exists_selectChainAt {δ : Type} (make : Nat → Known → Rasterizer δ) (k : Known)
    (rest : List Known) :
    ∃ c, selectChainAt make (.list ((k :: rest).map fun k => .text k.name)) = .ok c ∧
      ∀ r, c.rasterize r = askFrom r [] ((k :: rest).mapIdx make) := by
  have hselect : selectChainAt make (.list ((k :: rest).map fun k => .text k.name)) =
      chain ((k :: rest).mapIdx make) := by
    rw [selectChainAt, select_names]
    rfl
  rw [hselect, List.mapIdx_cons]
  exact exists_chain (List.cons_ne_nil _ _)

/-- A chain of known rasterizers gives data exactly if the first of its places that does not fail
succeeds with them, fails exactly if all places fail, and comes to any other fault exactly if the
first place that does not fail is a tool that refuses. No folder is left. -/
theorem selectChainAt_decided (machines : Nat → Machine) (k : Known) (rest : List Known)
    (r : Request) :
    ∃ c, selectChainAt (fun i => (machines i).rasterizer)
        (.list ((k :: rest).map fun k => .text k.name)) = .ok c ∧
      (∀ bytes, (c.rasterize r).result = .ok bytes ↔
        ∃ i l, Reached machines r (k :: rest) i l ∧ (machines i).Succeeds r bytes l) ∧
      ((∃ detail, (c.rasterize r).result = .error (.rasterizationFailed detail)) ↔
        ∀ i l, (k :: rest)[i]? = some l → (machines i).Fails r l) ∧
      ((∃ fault, (c.rasterize r).result = .error fault ∧
          ∀ detail, fault ≠ .rasterizationFailed detail) ↔
        ∃ i l, Reached machines r (k :: rest) i l ∧ (machines i).Refuses r l) ∧
      Deed.foldersLeft (c.rasterize r).deeds = [] := by
  obtain ⟨c, hc, hask⟩ := exists_selectChainAt (fun i => (machines i).rasterizer) k rest
  refine ⟨c, hc, ?_⟩
  rw [hask r]
  refine ⟨fun bytes => result_askFrom_eq_ok_iff, exists_failed_askFrom_iff,
    exists_unhandled_askFrom_iff, foldersLeft_askFrom ?_ []⟩
  intro s hs
  obtain ⟨i, hi, rfl⟩ := List.mem_mapIdx.mp hs
  exact Machine.foldersLeft_rasterize _ _ _

/-- A machine whose tool always ends well and leaves a file of one byte. -/
def Machine.obliging : Machine where
  tool := { found := true, run := fun _ _ => .exited 0 "" "" (some [0x78]) }
  folder := "work"
  library := .unusable "No module named 'cairosvg'"

/-- A document with half of a surrogate pair. -/
def Request.halved : Request where
  document := ("<svg>" : Text.CodePoints) ++ .ofValue 0xDCE9 :: ("</svg>" : Text.CodePoints)
  width := 10
  height := 20

/-- On half of a surrogate pair a chain ends with neither data nor the failure of all its places. -/
theorem selectChainAt_halved : ∃ c, selectChainAt (fun _ => Machine.obliging.rasterizer)
    (.list [.text (Known.name .rsvgConvert), .text (Known.name .cairo)]) = .ok c ∧
      (¬ ∃ bytes, (c.rasterize .halved).result = .ok bytes) ∧
      ¬ ∃ detail, (c.rasterize .halved).result = .error (.rasterizationFailed detail) := by
  refine ⟨_, rfl, ?_, ?_⟩
  · rintro ⟨bytes, h⟩
    cases h
  · rintro ⟨detail, h⟩
    cases h

end LabelPress.Rasterizer
