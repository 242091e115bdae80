import LabelPress.Rasterizer.Basic
import Mathlib.Data.List.Forall2

/-!
# Asking in order

Of a chain only the rasterizers up to the first that does not fail are asked, each once and all for
the same thing, and that one's result is the chain's, whatever it is. If all fail, the chain says
so, with what each of them said. A chain that stands in another one for rasterizers of its own is
therefore not told from them, but for what is said of failures.
-/

namespace LabelPress.Rasterizer

variable {δ : Type}

/-- A rasterizer fails on a request, because it is unavailable or at its work, and a chain will say
so with a text. -/
def Fails (s : Rasterizer δ) (r : Request) (text : String) : Prop :=
  ∃ detail, ((s.rasterize r).result = .error (.rasterizerUnavailable detail) ∨
    (s.rasterize r).result = .error (.rasterizationFailed detail)) ∧ text = s.name ++ ": " ++ detail

/-- A rasterizer gives data on a request or comes to a fault that a chain does not handle. -/
def Stands (s : Rasterizer δ) (r : Request) : Prop := ∀ text, ¬ s.Fails r text

/-- What rasterizers that are all asked for one thing do. -/
def deedsOf (r : Request) (ss : List (Rasterizer δ)) : List Deed :=
  ss.flatMap fun s => (s.rasterize r).deeds

theorem deedsOf_append (r : Request) (ss ts : List (Rasterizer δ)) :
    deedsOf r (ss ++ ts) = deedsOf r ss ++ deedsOf r ts := List.flatMap_append

/-- Rasterizers all fail, each with a text. -/
abbrev AllFail (r : Request) : List (Rasterizer δ) → List String → Prop :=
  List.Forall₂ fun s text => s.Fails r text

/-! ## One rasterizer -/

section One

variable {s : Rasterizer δ} {r : Request} {text : String} {fault : Fault}

/-- A rasterizer fails exactly if it comes to a fault that a chain handles. -/
theorem exists_fails_iff : (∃ text, s.Fails r text) ↔
    ∃ fault entry, (s.rasterize r).result = .error fault ∧
      failureEntry? s.name fault = some entry := by
  constructor
  · rintro ⟨text, detail, hresult | hresult, -⟩
    · exact ⟨_, _, hresult, rfl⟩
    · exact ⟨_, _, hresult, rfl⟩
  · rintro ⟨fault, entry, hresult, hentry⟩
    unfold failureEntry? at hentry
    split at hentry
    · exact ⟨_, _, .inl hresult, rfl⟩
    · exact ⟨_, _, .inr hresult, rfl⟩
    · cases hentry

/-- A rasterizer that stands ends the asking. -/
theorem askFrom_cons_of_stands (h : s.Stands r) (failures : List String)
    (rest : List (Rasterizer δ)) :
    (askFrom r failures (s :: rest)).deeds = (s.rasterize r).deeds ∧
      (askFrom r failures (s :: rest)).result = (s.rasterize r).result := by
  cases hresult : (s.rasterize r).result with
  | ok d => simp only [askFrom, hresult, and_self]
  | error fault =>
      have hnone : failureEntry? s.name fault = none := by
        refine Option.eq_none_iff_forall_ne_some.mpr fun entry hentry => ?_
        obtain ⟨text, htext⟩ := exists_fails_iff.mpr ⟨fault, entry, hresult, hentry⟩
        exact h text htext
      simp only [askFrom, hresult, hnone, and_self]

/-- After a rasterizer that fails the next ones are asked, and its text is kept. -/
theorem askFrom_cons_of_fails (h : s.Fails r text) (failures : List String)
    (rest : List (Rasterizer δ)) :
    (askFrom r failures (s :: rest)).deeds =
        (s.rasterize r).deeds ++ (askFrom r (failures ++ [text]) rest).deeds ∧
      (askFrom r failures (s :: rest)).result = (askFrom r (failures ++ [text]) rest).result := by
  have hhandled : ∃ fault entry, (s.rasterize r).result = .error fault ∧
      failureEntry? s.name fault = some entry ∧ text = s.name ++ ": " ++ fault.message := by
    obtain ⟨detail, hresult | hresult, rfl⟩ := h
    · exact ⟨_, _, hresult, rfl, rfl⟩
    · exact ⟨_, _, hresult, rfl, rfl⟩
  obtain ⟨fault, entry, hresult, hentry, rfl⟩ := hhandled
  simp only [askFrom, hresult, hentry, and_self]

end One

/-! ## One after the other -/

section Asking

variable {r : Request} {ss before : List (Rasterizer δ)} {s : Rasterizer δ} {texts : List String}

/-- After rasterizers that all fail the next ones are asked. -/
theorem askFrom_append_of_allFail (h : AllFail r ss texts) (failures : List String)
    (rest : List (Rasterizer δ)) :
    (askFrom r failures (ss ++ rest)).deeds =
        deedsOf r ss ++ (askFrom r (failures ++ texts) rest).deeds ∧
      (askFrom r failures (ss ++ rest)).result = (askFrom r (failures ++ texts) rest).result := by
  induction h generalizing failures with
  | nil =>
      rw [List.append_nil]
      exact ⟨rfl, rfl⟩
  | @cons s text ss texts hs _ ih =>
      obtain ⟨hdeeds, hresult⟩ := askFrom_cons_of_fails hs failures (ss ++ rest)
      obtain ⟨hdeeds', hresult'⟩ := ih (failures ++ [text])
      rw [List.append_cons failures]
      constructor
      · rw [List.cons_append, hdeeds, hdeeds', ← List.append_assoc]
        rfl
      · rw [List.cons_append, hresult, hresult']

/-- The work of asking rasterizers ends at one of them: all before it fail, it stands, and the
result is its own. None after it is asked. -/
structure EndsAt (r : Request) (w : Work δ) (before : List (Rasterizer δ)) (s : Rasterizer δ) :
    Prop where
  failed : ∃ texts, AllFail r before texts
  stands : s.Stands r
  deeds : w.deeds = deedsOf r (before ++ [s])
  result : w.result = (s.rasterize r).result

/-- The work of asking rasterizers fails: all of them fail, and what each said is listed in their
order. -/
structure Exhausts (r : Request) (w : Work δ) (ss : List (Rasterizer δ)) (texts : List String) :
    Prop where
  failed : AllFail r ss texts
  deeds : w.deeds = deedsOf r ss
  result : w.result =
    .error (.rasterizationFailed ("All rasterizers failed: " ++ "; ".intercalate texts))

theorem endsAt_askFrom (h : AllFail r before texts) (hs : s.Stands r) (failures : List String)
    (rest : List (Rasterizer δ)) :
    EndsAt r (askFrom r failures (before ++ s :: rest)) before s := by
  obtain ⟨hdeeds, hresult⟩ := askFrom_append_of_allFail h failures (s :: rest)
  obtain ⟨hdeeds', hresult'⟩ := askFrom_cons_of_stands hs (failures ++ texts) rest
  refine ⟨⟨texts, h⟩, hs, ?_, by rw [hresult, hresult']⟩
  rw [hdeeds, hdeeds', deedsOf_append]
  simp [deedsOf]

theorem exhausts_askFrom (h : AllFail r ss texts) : Exhausts r (askFrom r [] ss) ss texts := by
  have hend := askFrom_append_of_allFail h [] []
  rw [List.append_nil, List.nil_append] at hend
  exact ⟨h, hend.1.trans (List.append_nil _), hend.2⟩

/-- Of rasterizers all fail, or there is a first one that stands. -/
theorem exists_first_stands (r : Request) (ss : List (Rasterizer δ)) :
    (∃ before s rest texts, ss = before ++ s :: rest ∧ AllFail r before texts ∧ s.Stands r) ∨
      ∃ texts, AllFail r ss texts := by
  induction ss with
  | nil => exact Or.inr ⟨[], .nil⟩
  | cons s rest ih =>
      by_cases hs : s.Stands r
      · exact Or.inl ⟨[], s, rest, [], rfl, .nil, hs⟩
      · obtain ⟨text, htext⟩ := Classical.not_forall_not.mp hs
        rcases ih with ⟨before, t, others, texts, rfl, hbefore, ht⟩ | ⟨texts, hall⟩
        · exact Or.inl ⟨s :: before, t, others, text :: texts, rfl, .cons htext hbefore, ht⟩
        · exact Or.inr ⟨text :: texts, .cons htext hall⟩

end Asking

/-! ## Chains in chains -/

/-- Work that does the same and comes to the same, but for what a failure says. -/
structure Alike (w v : Work δ) : Prop where
  deeds : w.deeds = v.deeds
  result : w.result = v.result ∨ ∃ said said',
    w.result = .error (.rasterizationFailed said) ∧ v.result = .error (.rasterizationFailed said')

section Nested

variable {r : Request} {w v w' v' : Work δ} {ss before xs ys zs : List (Rasterizer δ)}
variable {s c : Rasterizer δ} {texts : List String}

theorem EndsAt.alike (hw : EndsAt r w before s) (hv : EndsAt r v before s) : Alike w v :=
  ⟨hw.deeds.trans hv.deeds.symm, .inl (hw.result.trans hv.result.symm)⟩

theorem Alike.after {deeds : List Deed} (h : Alike w v)
    (hw : w'.deeds = deeds ++ w.deeds ∧ w'.result = w.result)
    (hv : v'.deeds = deeds ++ v.deeds ∧ v'.result = v.result) : Alike w' v' := by
  constructor
  · rw [hw.1, hv.1, h.deeds]
  · rw [hw.2, hv.2]
    exact h.result

/-- What earlier rasterizers said has a part in nothing but what a failure says. -/
theorem alike_askFrom (r : Request) (failures failures' : List String)
    (ss : List (Rasterizer δ)) : Alike (askFrom r failures ss) (askFrom r failures' ss) := by
  rcases exists_first_stands r ss with ⟨before, s, rest, texts, rfl, hbefore, hs⟩ | ⟨texts, hall⟩
  · exact (endsAt_askFrom hbefore hs failures rest).alike (endsAt_askFrom hbefore hs failures' rest)
  · have hend : ∀ said said' : List String,
        Alike (askFrom r said ([] : List (Rasterizer δ))) (askFrom r said' []) :=
      fun _ _ => ⟨rfl, .inr ⟨_, _, rfl, rfl⟩⟩
    rw [← List.append_nil ss]
    exact (hend _ _).after (askFrom_append_of_allFail hall failures [])
      (askFrom_append_of_allFail hall failures' [])

/-- A rasterizer that asks others stands if one of them does, and does as they do. -/
theorem EndsAt.stands_of_eq (h : EndsAt r w before s) (hc : c.rasterize r = w) : c.Stands r := by
  rintro text ⟨detail, hresult, -⟩
  rw [hc, h.result] at hresult
  exact h.stands _ ⟨detail, hresult, rfl⟩

/-- A rasterizer that asks others fails if all of them do. -/
theorem Exhausts.exists_fails_of_eq (h : Exhausts r w ss texts) (hc : c.rasterize r = w) :
    ∃ text, c.Fails r text :=
  ⟨_, _, .inr (hc ▸ h.result), rfl⟩

/-- One that asks others first comes to what they come to where they stand themselves. -/
theorem alike_askFrom_cons (hc : c.rasterize r = askFrom r [] ys) (failures : List String)
    (zs : List (Rasterizer δ)) :
    Alike (askFrom r failures (c :: zs)) (askFrom r failures (ys ++ zs)) := by
  rcases exists_first_stands r ys with ⟨before, s, rest, texts, rfl, hbefore, hs⟩ | ⟨texts, hall⟩
  · have hinner := endsAt_askFrom hbefore hs [] rest
    have hflat := endsAt_askFrom hbefore hs failures (rest ++ zs)
    obtain ⟨hdeeds, hresult⟩ := askFrom_cons_of_stands (hinner.stands_of_eq hc) failures zs
    rw [List.append_assoc, List.cons_append]
    refine EndsAt.alike ⟨hinner.failed, hs, ?_, ?_⟩ hflat
    · rw [hdeeds, hc, hinner.deeds]
    · rw [hresult, hc, hinner.result]
  · have hinner := exhausts_askFrom hall
    obtain ⟨text, htext⟩ := hinner.exists_fails_of_eq hc
    have hnested := askFrom_cons_of_fails htext failures zs
    rw [hc, hinner.deeds] at hnested
    exact (alike_askFrom r _ _ zs).after hnested (askFrom_append_of_allFail hall failures zs)

/-- Rasterizers in a row can be put behind one that asks them. -/
theorem alike_askFrom_append (hc : c.rasterize r = askFrom r [] ys) (failures : List String)
    (xs zs : List (Rasterizer δ)) :
    Alike (askFrom r failures (xs ++ c :: zs)) (askFrom r failures (xs ++ (ys ++ zs))) := by
  rcases exists_first_stands r xs with ⟨before, s, rest, texts, rfl, hbefore, hs⟩ | ⟨texts, hall⟩
  · rw [List.append_assoc, List.append_assoc]
    exact (endsAt_askFrom hbefore hs failures _).alike (endsAt_askFrom hbefore hs failures _)
  · exact (alike_askFrom_cons hc _ zs).after (askFrom_append_of_allFail hall failures _)
      (askFrom_append_of_allFail hall failures _)

end Nested

/-! ## Chains -/

theorem exists_chain {ss : List (Rasterizer δ)} (h : ss ≠ []) :
    ∃ c, chain ss = .ok c ∧ ∀ r, c.rasterize r = askFrom r [] ss := by
  cases ss with
  | nil => exact absurd rfl h
  | cons s rest => exact ⟨_, rfl, fun _ => rfl⟩

/-- What a chain of rasterizers does with a request. -/
structure AsksInOrder (r : Request) (ss : List (Rasterizer δ)) (c : Rasterizer δ) : Prop where
  /-- The first one that stands ends it, or all of them fail. -/
  ends : (∃ before s rest, ss = before ++ s :: rest ∧ EndsAt r (c.rasterize r) before s) ∨
    ∃ texts, Exhausts r (c.rasterize r) ss texts
  /-- It fails exactly if all of them do. -/
  failed_iff : (∃ said, (c.rasterize r).result = .error (.rasterizationFailed said)) ↔
    ∃ texts, AllFail r ss texts
  /-- A chain of some in a row may stand in their place. -/
  nested : ∀ xs ys zs, ss = xs ++ (ys ++ zs) → ys ≠ [] → ∃ inner outer,
    chain ys = .ok inner ∧ chain (xs ++ inner :: zs) = .ok outer ∧
      Alike (outer.rasterize r) (c.rasterize r)

/-- A chain asks its rasterizers in order, for the same thing and each once, up to the first that
gives data or comes to a fault that is no failure, and its result is the chain's. It fails exactly
if all fail, with what each of them said, and chains in chains make no difference. -/
theorem chain_asksInOrder {ss : List (Rasterizer δ)} (h : ss ≠ []) (r : Request) :
    ∃ c, chain ss = .ok c ∧ AsksInOrder r ss c := by
  obtain ⟨c, hc, hask⟩ := exists_chain h
  refine ⟨c, hc, ?_, ?_, ?_⟩
  · rw [hask]
    rcases exists_first_stands r ss with ⟨before, s, rest, texts, rfl, hbefore, hs⟩ | ⟨texts, hall⟩
    · exact Or.inl ⟨before, s, rest, rfl, endsAt_askFrom hbefore hs [] rest⟩
    · exact Or.inr ⟨texts, exhausts_askFrom hall⟩
  · rw [hask]
    constructor
    · rintro ⟨said, hsaid⟩
      rcases exists_first_stands r ss with ⟨before, s, rest, texts, rfl, hbefore, hs⟩ | hall
      · rw [(endsAt_askFrom hbefore hs [] rest).result] at hsaid
        exact absurd ⟨said, .inr hsaid, rfl⟩ (hs _)
      · exact hall
    · rintro ⟨texts, hall⟩
      exact ⟨_, (exhausts_askFrom hall).result⟩
  · rintro xs ys zs rfl hys
    obtain ⟨inner, hinner, hinnerAsk⟩ := exists_chain hys
    obtain ⟨outer, houter, houterAsk⟩ := @exists_chain δ (xs ++ inner :: zs) (by simp)
    refine ⟨inner, outer, hinner, houter, ?_⟩
    rw [houterAsk, hask]
    exact alike_askFrom_append (hinnerAsk r) [] xs zs

/-- A tool that is missing, one that fails, and one that draws. -/
def missingFailingDrawing : List (Rasterizer String) :=
  [answering "a" false fun _ => .error (.rasterizerUnavailable "missing tool"),
   answering "b" true fun _ => .error (.rasterizationFailed "bad output"),
   answering "c" true fun _ => .ok "C"]

theorem chain_asksInOrder_missingFailingDrawing : missingFailingDrawing ≠ [] ∧
    ∃ c, chain missingFailingDrawing = .ok c ∧ AsksInOrder
      { document := ("<svg />" : Text.CodePoints), width := 3, height := 4 }
      missingFailingDrawing c :=
  ⟨List.cons_ne_nil _ _, chain_asksInOrder (List.cons_ne_nil _ _) _⟩

end LabelPress.Rasterizer
