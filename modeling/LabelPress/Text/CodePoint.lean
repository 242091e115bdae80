/-!
# Code points

An escape may spell half of a surrogate pair, and alone it is no character. A text that may hold
such halves is a list of code points; a text of characters is one without them, and no other text
comes from characters.
-/

namespace LabelPress.Text

/-- A character, or half of a surrogate pair that stands alone, by its place among the halves. -/
inductive CodePoint
  | char (c : Char)
  | half (place : Fin 0x800)
deriving DecidableEq, Repr

namespace CodePoint

/-- The number of a code point. -/
def value : CodePoint → Nat
  | char c => c.toNat
  | half place => 0xD800 + place

/-- The code point of a number. -/
def ofValue (n : Nat) : CodePoint :=
  if 0xD800 ≤ n ∧ n < 0xE000 then half (Fin.ofNat 0x800 (n - 0xD800)) else char (Char.ofNat n)

/-- Whether a code point is no character. -/
def isHalf : CodePoint → Bool
  | char _ => false
  | half _ => true

/-- The character that stands for a code point where only characters may stand. -/
def replaced : CodePoint → Char
  | char c => c
  | half _ => '\uFFFD'

end CodePoint

/-- A text that may hold halves of surrogate pairs. -/
abbrev CodePoints := List CodePoint

namespace CodePoints

/-- A text of characters. -/
def ofString (s : String) : CodePoints := s.toList.map .char

instance : Coe String CodePoints := ⟨ofString⟩

/-- The characters of a text without halves. -/
def chars? : CodePoints → Option (List Char)
  | [] => some []
  | .char c :: rest => (chars? rest).map (c :: ·)
  | .half _ :: _ => none

/-- The text as characters, if it is one of characters alone. -/
def toString? (s : CodePoints) : Option String := s.chars?.map String.ofList

/-- Halves in a row: the place of the first one and the numbers of all. -/
structure HalfRun where
  place : Nat
  values : List Nat
deriving DecidableEq, Repr

/-- The first halves in a text. -/
def firstHalves (s : CodePoints) : HalfRun :=
  let place := (s.takeWhile (!·.isHalf)).length
  ⟨place, ((s.drop place).takeWhile CodePoint.isHalf).map CodePoint.value⟩

/-- The text with every half replaced. -/
def replaced (s : CodePoints) : String := String.ofList (s.map CodePoint.replaced)

theorem chars?_eq_some_iff {s : CodePoints} {cs : List Char} :
    chars? s = some cs ↔ s = cs.map .char := by
  induction s generalizing cs with
  | nil => cases cs <;> simp [chars?]
  | cons p rest ih =>
    cases p with
    | char c =>
      cases cs with
      | nil => simp [chars?]
      | cons d ds => simpa [chars?, ih] using and_comm
    | half place => cases cs <;> simp [chars?]

theorem toString?_eq_some_iff {s : CodePoints} {t : String} :
    s.toString? = some t ↔ s = ofString t := by
  simp only [toString?, Option.map_eq_some_iff, chars?_eq_some_iff]
  constructor
  · rintro ⟨cs, rfl, rfl⟩
    simp [ofString]
  · intro h
    exact ⟨t.toList, h, String.ofList_toList⟩

@[simp] theorem toString?_ofString (t : String) : (ofString t).toString? = some t :=
  toString?_eq_some_iff.2 rfl

theorem ofString_inj {s t : String} : ofString s = ofString t ↔ s = t := by
  refine ⟨fun h => ?_, congrArg _⟩
  have hs := congrArg toString? h
  simpa using hs

end CodePoints

end LabelPress.Text
