import LabelPress.Proofs.Barcode.Geometry

/-!
# Reading a symbol from its bars

The bars of a symbol show its modules, the light ones included: the first bar has the width of a
module, and the last one ends the symbol. Between the start and the stop every eleven modules are
the pattern of one character, and no two characters share a pattern. So the characters can be read
back, and symbols with the same bars have the same characters, module widths and heights.
-/

namespace LabelPress.Barcode

namespace Pattern

variable {c : Char} {p : Pattern}

/-! ## Characters by their patterns -/

theorem nodup_all : all.Nodup := by decide +kernel

/-- The character of a pattern of the table. -/
def toChar? (p : Pattern) : Option Char :=
  if p ∈ all then some (Char.ofNat (first + all.idxOf p)) else none

/-- No two characters share a pattern. -/
theorem toChar?_of_ofChar? (h : ofChar? c = some p) : toChar? p = some c := by
  rw [ofChar?] at h
  split at h
  · next hfirst =>
      obtain ⟨n, hn, rfl⟩ := Option.map_eq_some_iff.mp h
      have hplace : all[c.toNat - first]? = some (ofNat 11 n) := by
        rw [all, List.getElem?_map, hn, Option.map_some]
      obtain ⟨hlt, hget⟩ := List.getElem?_eq_some_iff.mp hplace
      have hindex : all.idxOf (ofNat 11 n) = c.toNat - first := by
        rw [← hget]
        exact nodup_all.idxOf_getElem _ hlt
      have hcode : first + (c.toNat - first) = c.toNat := by omega
      rw [toChar?, if_pos (hget ▸ List.getElem_mem hlt), hindex, hcode, Char.ofNat_toNat]
  · cases h

/-- The characters of so many patterns in a row. -/
def readChars : Nat → Pattern → List Char
  | 0, _ => []
  | count + 1, p => (toChar? (p.take 11)).toList ++ readChars count (p.drop 11)

/-- Patterns in a row are read back, whatever follows them. -/
theorem readChars_flatten_append (cs : List Char) (rest : Pattern) :
    readChars (cs.filterMap ofChar?).length ((cs.filterMap ofChar?).flatten ++ rest) =
      cs.filter fun c => (ofChar? c).isSome := by
  induction cs with
  | nil => rfl
  | cons c cs ih =>
      cases hc : ofChar? c with
      | none => simp [hc, ih]
      | some p =>
          have hlength := length_of_ofChar? hc
          have htake : (p ++ ((cs.filterMap ofChar?).flatten ++ rest)).take 11 = p :=
            List.take_left' hlength
          have hdrop : (p ++ ((cs.filterMap ofChar?).flatten ++ rest)).drop 11 =
              (cs.filterMap ofChar?).flatten ++ rest :=
            List.drop_left' hlength
          rw [List.filterMap_cons_some hc, List.length_cons, List.flatten_cons, List.append_assoc,
            readChars, htake, hdrop, ih, toChar?_of_ofChar? hc,
            List.filter_cons_of_pos (by simp [hc])]
          rfl

/-- The characters of a symbol's modules, those of the start and of the stop left out. -/
def payload (p : Pattern) : List Char := readChars ((p.length - 24) / 11) (p.drop 11)

/-! ## Modules by their bars -/

/-- How many modules lie between the first bar and another. -/
def placeOf (first r : Rect) : Nat := ((r.x - first.x) / first.width).toNat

/-- The modules that bars from left to right show, from the first dark one to the last. -/
def ofBars (bars : List Rect) : Pattern :=
  match bars.head?, bars.getLast? with
  | some first, some last =>
    (List.range (placeOf first last + 1)).map fun i => decide (i ∈ bars.map (placeOf first))
  | _, _ => []

end Pattern

namespace Symbol

open Pattern

variable {s : Symbol} {drawn x y : Int}

theorem payload_modules (data : String) : (modules data).payload = covered data := by
  have hcount : ((modules data).length - 24) / 11 = (data.toList.filterMap ofChar?).length := by
    rw [length_modules, length_filterMap_ofChar?]
    omega
  have hdrop : (modules data).drop 11 =
      (data.toList.filterMap ofChar?).flatten ++ Pattern.stop := by
    rw [modules, List.append_assoc]
    exact List.drop_left' (length_ofNat ..)
  rw [payload, hcount, hdrop, readChars_flatten_append, covered]

/-- A module is found where its bar lies. -/
theorem placeOf_bar (h : 1 ≤ drawn) (height : Int) (i : Nat) :
    placeOf (bar drawn height x y) (bar drawn height (x + i * drawn) y) = i := by
  have hdistance : x + i * drawn - x = i * drawn := by omega
  rw [placeOf, bar, bar, hdistance, Int.mul_ediv_cancel _ (by omega), Int.toNat_natCast]

/-- The bars of a symbol show all of its modules. -/
theorem ofBars_bars (h : 1 ≤ drawn) (s : Symbol) (x y : Int) :
    ofBars (s.bars drawn x y) = modules s.data := by
  have hlength : 1 ≤ (modules s.data).length := by
    rw [length_modules]
    omega
  have hends : x + width s.data drawn - drawn =
      x + (((modules s.data).length - 1 : Nat) : Int) * drawn := by
    rw [width, flatMap_groups, Nat.cast_sub hlength, sub_mul]
    omega
  have hplaces : (s.bars drawn x y).map (placeOf (bar drawn s.height x y)) =
      (modules s.data).darkPlaces := by
    rw [bars_eq, List.map_map]
    exact (List.map_congr_left fun i _ => placeOf_bar h s.height i).trans (List.map_id _)
  have hsucc : (modules s.data).length - 1 + 1 = (modules s.data).length := by omega
  rw [ofBars, head?_bars, getLast?_bars, hends]
  simp only [hplaces, placeOf_bar h, hsucc]
  apply List.ext_getElem
  · simp
  · intro i _ hi
    simp [mem_darkPlaces_iff, List.getElem?_eq_getElem hi]

/-- The characters that the bars of a symbol show. -/
def decode (bars : List Rect) : List Char := (ofBars bars).payload

/-- The bars of a symbol show the characters of its payload that have patterns, in order. -/
theorem decode_bars (h : 1 ≤ drawn) (s : Symbol) (x y : Int) :
    decode (s.bars drawn x y) = covered s.data := by
  rw [decode, ofBars_bars h, payload_modules]

/-- Characters without a pattern leave no trace in the modules. -/
theorem modules_congr {d₁ d₂ : String} (h : covered d₁ = covered d₂) :
    modules d₁ = modules d₂ := by
  have hcovered (data : String) :
      data.toList.filterMap ofChar? = (covered data).filterMap ofChar? := by
    rw [covered, List.filterMap_filter]
    apply List.filterMap_congr
    intro c _
    cases ofChar? c <;> rfl
  rw [modules, modules, hcovered d₁, hcovered d₂, h]

theorem covered_eq (data : String) :
    covered data = data.toList.filter fun c => 32 ≤ c.toNat ∧ c.toNat ≤ 90 := by
  apply List.filter_congr
  intro c _
  rw [Bool.eq_iff_iff, isSome_ofChar?_iff, decide_eq_true_eq]

end Symbol

open LabelPress.Barcode.Symbol

variable {d₁ d₂ : String} {m₁ m₂ h₁ h₂ : Int}

theorem encode_eq_ok_iff {bars : List Rect} : encode d₁ m₁ h₁ = .ok bars ↔
    ∃ drawn, drawnWidth m₁ = .ok drawn ∧
      Symbol.bars { data := d₁, moduleWidth := m₁, height := h₁ } drawn 0 0 = bars := by
  rw [encode]
  simp only [bind, Fault.bind_eq_ok_iff, pure, Except.pure, Except.ok.injEq]

/-- The bars of a payload, if it can be drawn, are read back. -/
theorem map_decode_encode (data : String) (moduleWidth height : Int) :
    (encode data moduleWidth height).map decode =
      (drawnWidth moduleWidth).map fun _ => covered data := by
  rw [encode]
  cases hw : drawnWidth moduleWidth with
  | error fault => rfl
  | ok drawn => exact congrArg Except.ok (decode_bars (one_le_drawnWidth hw) _ 0 0)

theorem decode_of_encode {bars : List Rect} (h : encode d₁ m₁ h₁ = .ok bars) :
    decode bars = covered d₁ := by
  obtain ⟨drawn, hw, -⟩ := encode_eq_ok_iff.mp h
  have hmap := map_decode_encode d₁ m₁ h₁
  rw [h, hw] at hmap
  exact Except.ok.inj hmap

/-- The first bar has the width of a module and the height of the symbol. -/
theorem head?_of_encode {bars : List Rect} (h : encode d₁ m₁ h₁ = .ok bars) :
    ∃ drawn, drawnWidth m₁ = .ok drawn ∧ bars.head? = some (bar drawn h₁ 0 0) := by
  obtain ⟨drawn, hw, rfl⟩ := encode_eq_ok_iff.mp h
  exact ⟨drawn, hw, head?_bars ..⟩

/-- Two payloads are drawn with the same bars exactly if they have the same characters from the
space to the capital Z, in the same order, the same width of drawn modules and the same height; and
from the bars of a payload these characters are read back. -/
theorem encode_eq_encode_iff :
    ((∃ bars, encode d₁ m₁ h₁ = .ok bars ∧ encode d₂ m₂ h₂ = .ok bars) ↔
      (d₁.toList.filter fun c => 32 ≤ c.toNat ∧ c.toNat ≤ 90) =
          (d₂.toList.filter fun c => 32 ≤ c.toNat ∧ c.toNat ≤ 90) ∧
        (∃ drawn, drawnWidth m₁ = .ok drawn ∧ drawnWidth m₂ = .ok drawn) ∧ h₁ = h₂) ∧
      (encode d₁ m₁ h₁).map decode =
        (drawnWidth m₁).map fun _ => d₁.toList.filter fun c => 32 ≤ c.toNat ∧ c.toNat ≤ 90 := by
  rw [← covered_eq, ← covered_eq]
  constructor
  · constructor
    · rintro ⟨bars, hb₁, hb₂⟩
      obtain ⟨drawn, hw₁, hfirst₁⟩ := head?_of_encode hb₁
      obtain ⟨drawn', hw₂, hfirst₂⟩ := head?_of_encode hb₂
      have hcovered : covered d₁ = covered d₂ :=
        (decode_of_encode hb₁).symm.trans (decode_of_encode hb₂)
      have hfirst : bar drawn h₁ 0 0 = bar drawn' h₂ 0 0 :=
        Option.some.inj (hfirst₁.symm.trans hfirst₂)
      obtain ⟨-, -, rfl, rfl, -⟩ := Rect.mk.inj hfirst
      exact ⟨hcovered, ⟨drawn, hw₁, hw₂⟩, rfl⟩
    · rintro ⟨hcovered, ⟨drawn, hw₁, hw₂⟩, rfl⟩
      refine ⟨_, encode_eq_ok_iff.mpr ⟨drawn, hw₁, rfl⟩, encode_eq_ok_iff.mpr ⟨drawn, hw₂, ?_⟩⟩
      rw [bars_eq, bars_eq, modules_congr hcovered]
  · exact map_decode_encode ..

end LabelPress.Barcode
