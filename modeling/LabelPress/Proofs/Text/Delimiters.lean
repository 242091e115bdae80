import LabelPress.Proofs.Text.Runs

/-!
# Texts that are told apart in front of others

What is written one after the other can be taken apart again if each piece shows where it ends: by
the first character of another class, or because no piece that is written is the start of another.
-/

namespace LabelPress.Text

/-- Two texts of a class, each in front of a character of no such class, are the same. -/
theorem append_cons_inj_of_all {p : Char → Bool} {x y t u : List Char} {d e : Char}
    (hx : ∀ c ∈ x, p c = true) (hy : ∀ c ∈ y, p c = true) (hd : p d = false) (he : p e = false)
    (h : x ++ d :: t = y ++ e :: u) : x = y ∧ d = e ∧ t = u := by
  have hrun : Run p (x ++ d :: t) x (d :: t) := ⟨rfl, hx, by simpa using hd⟩
  have hrun' : Run p (x ++ d :: t) y (e :: u) := ⟨h, hy, by simpa using he⟩
  obtain ⟨hxy, htu⟩ := run_iff.mp hrun
  rw [(run_iff.mp hrun').1] at hxy
  rw [(run_iff.mp hrun').2, List.cons.injEq] at htu
  exact ⟨hxy.symm, htu.1.symm, htu.2.symm⟩

/-- Two texts up to the first of one character are the same. -/
theorem append_cons_inj_of_notMem {x y t u : List Char} {d : Char} (hx : d ∉ x) (hy : d ∉ y)
    (h : x ++ d :: t = y ++ d :: u) : x = y ∧ t = u := by
  have hne : ∀ {z : List Char}, d ∉ z → ∀ c ∈ z, (c != d) = true := by
    intro z hz c hc
    exact bne_iff_ne.mpr fun hcd => hz (hcd ▸ hc)
  obtain ⟨hxy, -, htu⟩ := append_cons_inj_of_all (hne hx) (hne hy) (by simp) (by simp) h
  exact ⟨hxy, htu⟩

/-- Pieces that are told apart one by one are told apart in a row, if what follows the row starts
with none of them. -/
theorem flatMap_append_inj {α : Type} {f : α → List Char} {xs ys : List α} {r s : List Char}
    (hcode : ∀ a ∈ xs, ∀ b ∈ ys, ∀ t u, f a ++ t = f b ++ u → a = b ∧ t = u)
    (hr : ∀ b ∈ ys, ∀ t, f b ++ t ≠ r) (hs : ∀ a ∈ xs, ∀ t, f a ++ t ≠ s)
    (h : xs.flatMap f ++ r = ys.flatMap f ++ s) : xs = ys ∧ r = s := by
  induction xs generalizing ys with
  | nil =>
      cases ys with
      | nil => exact ⟨rfl, h⟩
      | cons b ys =>
          rw [List.flatMap_nil, List.nil_append, List.flatMap_cons, List.append_assoc] at h
          exact absurd h.symm (hr b List.mem_cons_self _)
  | cons a xs ih =>
      cases ys with
      | nil =>
          rw [List.flatMap_nil, List.nil_append, List.flatMap_cons, List.append_assoc] at h
          exact absurd h (hs a List.mem_cons_self _)
      | cons b ys =>
          rw [List.flatMap_cons, List.flatMap_cons, List.append_assoc, List.append_assoc] at h
          obtain ⟨rfl, hrest⟩ := hcode a List.mem_cons_self b List.mem_cons_self _ _ h
          obtain ⟨rfl, hrs⟩ := ih
            (fun c hc d hd => hcode c (List.mem_cons_of_mem _ hc) d (List.mem_cons_of_mem _ hd))
            (fun d hd => hr d (List.mem_cons_of_mem _ hd))
            (fun c hc => hs c (List.mem_cons_of_mem _ hc)) hrest
          exact ⟨rfl, hrs⟩

end LabelPress.Text
