import LabelPress.Command.Reader
import LabelPress.Proofs.Text.Runs
import Mathlib.Data.List.Forall2

/-!
# Markup and its bodies

Cutting a markup at its carets undoes writing one before each body. The bodies that are cut out are
not empty and hold no caret, and whatever a markup starts with is cut by itself.
-/

namespace LabelPress.Command

/-- Whether a text can be the body of a command in a markup. -/
def IsBody (body : List Char) : Prop := body ≠ [] ∧ caret ∉ body

instance (body : List Char) : Decidable (IsBody body) := inferInstanceAs (Decidable (_ ∧ _))

/-- The markup of bodies. -/
def ofBodies (bs : List (List Char)) : List Char := bs.flatMap fun b => caret :: b

@[simp] theorem ofBodies_nil : ofBodies [] = [] := rfl

@[simp] theorem ofBodies_cons (b : List Char) (bs : List (List Char)) :
    ofBodies (b :: bs) = caret :: (b ++ ofBodies bs) := rfl

@[simp] theorem bodies_nil : bodies [] = [] := rfl

theorem bodies_of_not_mem {m : List Char} (h : caret ∉ m) :
    bodies m = [m].filter fun piece => !piece.isEmpty := by
  rw [bodies, List.splitOn_eq_singleton h]

theorem bodies_body {b : List Char} (h : IsBody b) : bodies b = [b] := by
  rw [bodies_of_not_mem h.2]
  simp [h.1]

theorem bodies_caret_cons (m : List Char) : bodies (caret :: m) = bodies m := by
  simpa using bodies_append [] m

/-- What comes before a markup of bodies is cut by itself. -/
theorem bodies_append_ofBodies (lead : List Char) {bs : List (List Char)}
    (h : ∀ b ∈ bs, IsBody b) : bodies (lead ++ ofBodies bs) = bodies lead ++ bs := by
  induction bs generalizing lead with
  | nil => simp
  | cons b rest ih =>
      obtain ⟨hb, hrest⟩ := List.forall_mem_cons.mp h
      rw [ofBodies_cons, bodies_append, ih b hrest, bodies_body hb, List.singleton_append]

/-- Every body of a markup can be one. -/
theorem isBody_of_mem_bodies {m b : List Char} (h : b ∈ bodies m) : IsBody b := by
  rw [bodies, List.mem_filter] at h
  exact ⟨by simpa using h.2, Text.not_mem_of_mem_splitOn h.1⟩

/-! ## Reading all bodies -/

section Reading

variable {α β : Type} {f : α → Except Fault β}

/-- Items are read together exactly if they are read one by one. -/
theorem mapM_eq_ok_iff {xs : List α} {ys : List β} :
    xs.mapM f = .ok ys ↔ List.Forall₂ (fun x y => f x = .ok y) xs ys := by
  induction xs generalizing ys with
  | nil => cases ys <;> simp [pure, Except.pure]
  | cons x rest ih =>
      rw [List.mapM_cons]
      cases hx : f x with
      | error fault => cases ys <;> simp [hx, bind, Except.bind]
      | ok y =>
          cases hr : rest.mapM f with
          | error fault => cases ys <;> simp [hx, hr, ← ih, bind, Except.bind]
          | ok zs => cases ys <;> simp [hx, hr, ← ih, bind, Except.bind, pure, Except.pure]

/-- What is read is read from one of the items. -/
theorem exists_of_mem_mapM {xs : List α} {ys : List β} (h : xs.mapM f = .ok ys) {y : β}
    (hy : y ∈ ys) : ∃ x ∈ xs, f x = .ok y := by
  rw [mapM_eq_ok_iff] at h
  induction h with
  | nil => cases hy
  | @cons x z xs zs hx _ ih =>
      rcases List.mem_cons.mp hy with rfl | hy
      · exact ⟨x, List.mem_cons_self, hx⟩
      · obtain ⟨u, hu, hf⟩ := ih hy
        exact ⟨u, List.mem_cons_of_mem x hu, hf⟩

theorem mapM_map_eq_ok {g : β → α} {ys : List β} (h : ∀ y ∈ ys, f (g y) = .ok y) :
    (ys.map g).mapM f = .ok ys := by
  rw [mapM_eq_ok_iff, List.forall₂_map_left_iff]
  exact List.forall₂_same.mpr h

/-- All items are read exactly if each of them is. -/
theorem exists_mapM_eq_ok_iff {xs : List α} :
    (∃ ys, xs.mapM f = .ok ys) ↔ ∀ x ∈ xs, ∃ y, f x = .ok y := by
  simp only [mapM_eq_ok_iff]
  induction xs with
  | nil => simp
  | cons x rest ih =>
      rw [List.forall_mem_cons, ← ih]
      constructor
      · rintro ⟨ys, hys⟩
        cases hys with
        | cons hx hr => exact ⟨⟨_, hx⟩, _, hr⟩
      · rintro ⟨⟨y, hx⟩, zs, hr⟩
        exact ⟨y :: zs, .cons hx hr⟩

/-- What is done to all that was read can be done to each item as it is read. -/
theorem map_mapM {γ : Type} (g : β → γ) (xs : List α) :
    (xs.mapM f).map (List.map g) = xs.mapM fun x => (f x).map g := by
  induction xs with
  | nil => rfl
  | cons x rest ih =>
      rw [List.mapM_cons, List.mapM_cons, ← ih]
      cases f x with
      | error fault => rfl
      | ok y => cases rest.mapM f <;> rfl

end Reading

end LabelPress.Command
