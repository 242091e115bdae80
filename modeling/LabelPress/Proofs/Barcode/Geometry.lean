import LabelPress.Proofs.Painting.Ranges

/-!
# Where the bars of a symbol lie

Every module of a symbol takes up the same width, and a bar is drawn for each dark one, so a bar
lies where the place of its module says. A symbol begins and ends with a dark module: its bars begin
where the symbol stands and end where its width says.
-/

namespace LabelPress.Barcode

namespace Pattern

variable {p : Pattern} {c : Char} {i : Nat}

/-! ## Patterns of characters -/

theorem length_table : table.length = 59 := rfl

/-- The characters with patterns are those from the space to the capital Z. -/
theorem isSome_ofChar?_iff : (ofChar? c).isSome = true ↔ 32 ≤ c.toNat ∧ c.toNat ≤ 90 := by
  rw [ofChar?]
  split
  · next hfirst =>
      have hlow : 32 ≤ c.toNat := hfirst
      have hfirstNat : first = 32 := rfl
      rw [Option.isSome_map, isSome_getElem?, length_table]
      omega
  · next hfirst =>
      have hlow : ¬ 32 ≤ c.toNat := hfirst
      simp [hlow]

theorem length_of_ofChar? (h : ofChar? c = some p) : p.length = 11 := by
  rw [ofChar?] at h
  split at h
  · obtain ⟨n, -, rfl⟩ := Option.map_eq_some_iff.mp h
    exact length_ofNat 11 n
  · cases h

/-! ## Dark modules -/

/-- The places of the dark modules, from left to right. -/
def darkPlaces (p : Pattern) : List Nat :=
  (List.range p.length).filter fun i => p[i]? = some true

theorem mem_darkPlaces_iff : i ∈ p.darkPlaces ↔ p[i]? = some true := by
  rw [darkPlaces, List.mem_filter, List.mem_range, decide_eq_true_eq, and_iff_right_iff_imp]
  intro h
  exact (List.getElem?_eq_some_iff.mp h).1

theorem pairwise_darkPlaces (p : Pattern) : p.darkPlaces.Pairwise (· < ·) :=
  List.pairwise_lt_range.filter _

theorem darkPlaces_cons (dark : Bool) (p : Pattern) :
    darkPlaces (dark :: p) = (if dark then [0] else []) ++ p.darkPlaces.map (· + 1) := by
  rw [darkPlaces, List.length_cons, List.range_succ_eq_map, List.filter_cons, List.filter_map]
  cases dark <;> rfl

theorem darkPlaces_concat_dark (p : Pattern) :
    darkPlaces (p ++ [true]) = p.darkPlaces ++ [p.length] := by
  have hbefore : (List.range p.length).filter (fun i => (p ++ [true])[i]? = some true) =
      p.darkPlaces := by
    apply List.filter_congr
    intro i hi
    rw [List.getElem?_append_left (List.mem_range.mp hi)]
  rw [darkPlaces, List.length_append, List.length_singleton, List.range_succ, List.filter_append,
    hbefore]
  simp

end Pattern

namespace Symbol

open Pattern

/-- The modules of a symbol: the start, the patterns of the characters that have one, the stop. -/
def modules (data : String) : Pattern :=
  Pattern.start ++ (data.toList.filterMap ofChar?).flatten ++ Pattern.stop

/-- The bar of a module at a position. -/
def bar (drawn height x y : Int) : Rect :=
  { x, y, width := drawn, height, fill := "black", stroke := "none" }

/-- How a symbol lies at a position, with modules of some width. -/
structure LiesAt (s : Symbol) (drawn x y : Int) : Prop where
  /-- Modules are never narrower than one. -/
  one_le_drawn : 1 ≤ drawn
  /-- There is one bar for each dark module, where the place of the module says. -/
  bars : s.bars drawn x y =
    (modules s.data).darkPlaces.map fun i : Nat => bar drawn s.height (x + i * drawn) y
  /-- A bar ends before the next one begins. -/
  apart : (s.bars drawn x y).Pairwise fun r t => r.x < t.x ∧ r.x + r.width ≤ t.x
  /-- The bars begin where the symbol stands. -/
  first : (s.bars drawn x y).head?.map Rect.x = some x
  /-- The bars end where the width of the symbol says. -/
  last : (s.bars drawn x y).getLast?.map (fun r => r.x + r.width) =
    some (x + width s.data drawn)
  /-- A symbol has 24 modules besides the 11 of each character that has a pattern. -/
  width : width s.data drawn = (24 + 11 * (covered s.data).length) * drawn
  /-- A printed payload is centred on this width. -/
  caption : ∀ t, s.caption drawn x y = some t →
    t.anchor = some "middle" ∧ t.x = x + (24 + 11 * (covered s.data).length) * drawn / 2

variable {s : Symbol} {drawn height x y : Int} {data : String}

/-! ## Modules -/

theorem flatMap_groups (data : String) : (groups data).flatMap Prod.snd = modules data := by
  have hcharacters : (data.toList.filterMap fun c =>
      (ofChar? c).map fun p => (Group.character c, p)).flatMap Prod.snd =
        (data.toList.filterMap ofChar?).flatten := by
    rw [List.flatMap_def, List.map_filterMap]
    congr 2
    funext c
    rw [Option.map_map]
    exact Option.map_id' ..
  rw [groups, modules, List.flatMap_append, List.flatMap_cons, hcharacters]
  simp

theorem length_filterMap_ofChar? (data : String) :
    (data.toList.filterMap ofChar?).length = (covered data).length := by
  rw [covered, List.length_filterMap_eq_countP, List.countP_eq_length_filter]

/-- Each character that has a pattern takes up eleven modules. -/
theorem length_modules (data : String) :
    (modules data).length = 24 + 11 * (covered data).length := by
  have hall : ∀ p ∈ data.toList.filterMap ofChar?, p.length = 11 := by
    intro p hp
    obtain ⟨c, -, hc⟩ := List.mem_filterMap.mp hp
    exact length_of_ofChar? hc
  have hstart : Pattern.start.length = 11 := length_ofNat ..
  have hstop : Pattern.stop.length = 13 := length_ofNat ..
  rw [modules, List.length_append, List.length_append, List.length_flatten,
    List.map_congr_left hall, List.map_const', List.sum_replicate_nat, length_filterMap_ofChar?,
    hstart, hstop]
  omega

theorem exists_modules_eq_dark_cons (data : String) : ∃ rest, modules data = true :: rest :=
  ⟨_, rfl⟩

theorem exists_modules_eq_concat_dark (data : String) : ∃ lead, modules data = lead ++ [true] :=
  ⟨Pattern.start ++ (data.toList.filterMap ofChar?).flatten ++ Pattern.stop.dropLast, by
    rw [modules, List.append_assoc _ _ [true]]
    rfl⟩

/-! ## Bars -/

theorem barsFrom_eq_map_darkPlaces (p : Pattern) :
    barsFrom drawn height y x p =
      p.darkPlaces.map fun i : Nat => bar drawn height (x + i * drawn) y := by
  induction p generalizing x with
  | nil => rfl
  | cons dark rest ih =>
      have hstep : ∀ i : Nat, x + ((i + 1 : Nat) : Int) * drawn = x + drawn + i * drawn := by
        intro i
        rw [Nat.cast_succ, add_mul, one_mul]
        omega
      rw [barsFrom, ih, darkPlaces_cons, List.map_append, List.map_map]
      simp only [Function.comp_def, hstep]
      cases dark <;> simp [bar]

theorem bars_eq (s : Symbol) (drawn x y : Int) :
    s.bars drawn x y =
      (modules s.data).darkPlaces.map fun i : Nat => bar drawn s.height (x + i * drawn) y := by
  rw [bars, flatMap_groups, barsFrom_eq_map_darkPlaces]

theorem one_le_drawnWidth {moduleWidth : Int} (h : drawnWidth moduleWidth = .ok drawn) :
    1 ≤ drawn := by
  rw [drawnWidth] at h
  obtain ⟨quotient, -, h⟩ := Fault.bind_eq_ok_iff.mp h
  obtain ⟨n, -, h⟩ := Fault.bind_eq_ok_iff.mp h
  rw [← Except.ok.inj h]
  exact le_max_left 1 n

theorem width_eq (data : String) (drawn : Int) :
    width data drawn = (24 + 11 * (covered data).length) * drawn := by
  rw [width, flatMap_groups, length_modules]
  push_cast
  rfl

/-- A dark module further on begins where the one before it has ended. -/
theorem pairwise_bars (h : 1 ≤ drawn) :
    (s.bars drawn x y).Pairwise fun r t => r.x < t.x ∧ r.x + r.width ≤ t.x := by
  rw [bars_eq, List.pairwise_map]
  apply (pairwise_darkPlaces _).imp
  intro i j hij
  have hnext : (i + 1 : Int) * drawn ≤ j * drawn := by
    apply Int.mul_le_mul_of_nonneg_right _ (by omega)
    exact_mod_cast hij
  rw [add_mul, one_mul] at hnext
  simp only [bar]
  omega

theorem head?_bars (s : Symbol) (drawn x y : Int) :
    (s.bars drawn x y).head? = some (bar drawn s.height x y) := by
  obtain ⟨rest, hrest⟩ := exists_modules_eq_dark_cons s.data
  rw [bars_eq, hrest, darkPlaces_cons]
  simp

theorem getLast?_bars (s : Symbol) (drawn x y : Int) :
    (s.bars drawn x y).getLast? =
      some (bar drawn s.height (x + width s.data drawn - drawn) y) := by
  obtain ⟨lead, hlead⟩ := exists_modules_eq_concat_dark s.data
  have hwidth : width s.data drawn = lead.length * drawn + drawn := by
    rw [width, flatMap_groups, hlead, List.length_append, List.length_singleton, Nat.cast_succ,
      add_mul, one_mul]
  have hplace : x + width s.data drawn - drawn = x + lead.length * drawn := by
    rw [hwidth]
    omega
  rw [bars_eq, hlead, darkPlaces_concat_dark, List.map_append, hplace]
  simp

/-- A symbol can be drawn exactly if its module width has a floating-point number. Then its bars are
its dark modules, each at its own place, and they fill its width from end to end. -/
theorem exists_drawnWidth_iff_and_liesAt (s : Symbol) (x y : Int) :
    ((∃ drawn, drawnWidth s.moduleWidth = .ok drawn) ↔ FitsFloat s.moduleWidth) ∧
      ∀ drawn, drawnWidth s.moduleWidth = .ok drawn → LiesAt s drawn x y := by
  refine ⟨Painting.exists_drawnWidth_iff, fun drawn h => ?_⟩
  have hdrawn := one_le_drawnWidth h
  refine ⟨hdrawn, bars_eq s drawn x y, pairwise_bars hdrawn, ?_, ?_, width_eq s.data drawn, ?_⟩
  · rw [head?_bars]
    rfl
  · rw [getLast?_bars, Option.map_some, bar, sub_add_cancel]
  · intro t ht
    rw [Symbol.caption] at ht
    split at ht
    · rw [← Option.some.inj ht, width_eq]
      exact ⟨rfl, rfl⟩
    · cases ht

/-- A symbol of two characters with patterns and one without, in modules of width two. -/
def wideModules : Symbol := { data := "AéB", moduleWidth := 3, height := 80 }

theorem exists_drawnWidth_iff_and_liesAt_wideModules :
    drawnWidth 3 = .ok 2 ∧ LiesAt wideModules 2 5 7 := by
  have hdrawn : drawnWidth 3 = .ok 2 := by decide +kernel
  exact ⟨hdrawn, (exists_drawnWidth_iff_and_liesAt wideModules 5 7).2 2 hdrawn⟩

end Symbol

end LabelPress.Barcode
