import LabelPress.Number.Numeral
import LabelPress.Text.Digit
import Mathlib.Data.Nat.Digits.Lemmas

/-!
# Numerals and their values

A run of digits of any script has a decimal value below the power of ten that its length gives. The
digits of a number that is written out are plain, have that number as their value, and are as many
as it needs.
-/

namespace LabelPress.Number

open LabelPress.Text

/-- The value of a run of decimal digits of any script. -/
def decimalValue (digits : List Char) : Nat :=
  Nat.ofDigits 10 (digits.map fun c => (digitValue? c).getD 0).reverse

theorem ofDigits_eq (ds : List Nat) : ofDigits ds = Nat.ofDigits 10 ds.reverse := by
  induction ds using List.reverseRecOn with
  | nil => rfl
  | append_singleton ds d ih =>
      rw [ofDigits_append, ih, List.reverse_append, List.reverse_singleton, List.singleton_append,
        Nat.ofDigits_cons, Nat.add_comm]

theorem numeralValue_eq (digits : List Char) : numeralValue digits = decimalValue digits :=
  ofDigits_eq _

theorem readNumeral_eq (digits : List Char) : readNumeral digits =
    if Fault.digitLimit < digits.length then .error (.numeralTooLong digits.length)
    else .ok (decimalValue digits) := by
  rw [readNumeral, numeralValue_eq]

theorem decimalValue_lt (digits : List Char) : decimalValue digits < 10 ^ digits.length := by
  have hdigit : ∀ d ∈ (digits.map fun c => (digitValue? c).getD 0).reverse, d < 10 := by
    intro d hd
    obtain ⟨c, -, rfl⟩ := List.mem_map.mp (List.mem_reverse.mp hd)
    cases hc : digitValue? c with
    | none => simp
    | some v => exact Nat.lt_succ_of_le (digitValue?_le hc)
  have hlt := Nat.ofDigits_lt_base_pow_length (by decide : 1 < 10) hdigit
  rwa [List.length_reverse, List.length_map] at hlt

theorem decimalValue_lt_of_length_le {digits : List Char} {limit : Nat}
    (h : digits.length ≤ limit) : decimalValue digits < Nat.pow 10 limit :=
  (decimalValue_lt digits).trans_le (Nat.pow_le_pow_right (by decide) h)

/-! ## Numbers that are written out -/

/-- A plain digit is a digit, and its code point gives its value. -/
theorem digitValue?_of_isDigit {c : Char} (h : c.isDigit = true) :
    digitValue? c = some (c.toNat - '0'.toNat) := by
  obtain ⟨hl, hu⟩ : 48 ≤ c.toNat ∧ c.toNat ≤ 57 := by
    simpa [Char.isDigit, UInt32.le_iff_toNat_le] using h
  simp [digitValue?, decimalZeros, hl, hu]

/-- The digits of a number that is not negative. -/
def digitsOf (n : Int) : List Char := Nat.toDigits 10 n.natAbs

theorem toList_repr_natAbs (n : Int) : n.natAbs.repr.toList = digitsOf n := by
  rw [Nat.repr_eq_ofList_toDigits, String.toList_ofList, digitsOf]

theorem toList_integerText {n : Int} (h : 0 ≤ n) : (integerText n).toList = digitsOf n := by
  rw [integerText, if_neg (Int.not_lt.mpr h), toList_repr_natAbs]

theorem digitsOf_ne_nil (n : Int) : digitsOf n ≠ [] := Nat.toDigits_ne_nil

theorem isDigit_of_mem_digitsOf {n : Int} {c : Char} (h : c ∈ digitsOf n) : c.isDigit = true :=
  Nat.isDigit_of_mem_toDigits (by decide) (by decide) h

theorem text_isDigit_of_mem_digitsOf {n : Int} {c : Char} (h : c ∈ digitsOf n) :
    Text.isDigit c = true := by
  rw [Text.isDigit, digitValue?_of_isDigit (isDigit_of_mem_digitsOf h)]
  rfl

theorem decimalValue_digitsOf {n : Int} (h : 0 ≤ n) : (decimalValue (digitsOf n) : Int) = n := by
  have hvalue : decimalValue (digitsOf n) = n.natAbs := by
    calc
      decimalValue (digitsOf n) = numeralValue (digitsOf n) := (numeralValue_eq _).symm
      _ = Nat.ofDigitChars 10 (digitsOf n) 0 := by
        rw [numeralValue, ofDigits, List.foldl_map, Nat.ofDigitChars]
        apply List.foldl_ext
        intro m c hc
        rw [digitValue?_of_isDigit (isDigit_of_mem_digitsOf hc), Option.getD_some]
      _ = n.natAbs := Nat.ofDigitChars_ten_toDigits
  rw [hvalue, Int.natAbs_of_nonneg h]

theorem natAbs_eq_of_digitsOf_eq {n m : Int} (h : digitsOf n = digitsOf m) :
    n.natAbs = m.natAbs := by
  have hvalue := congrArg (Nat.ofDigitChars 10 · 0) h
  simpa only [digitsOf, Nat.ofDigitChars_ten_toDigits] using hvalue

theorem toList_integerText_of_neg {n : Int} (h : n < 0) :
    (integerText n).toList = '-' :: digitsOf n := by
  rw [integerText, if_pos h, String.toList_append, toList_repr_natAbs]
  rfl

/-- A number that is not negative starts with no sign. -/
theorem digitsOf_ne_minus (n : Int) (ds : List Char) : digitsOf n ≠ '-' :: ds := by
  intro h
  exact absurd (isDigit_of_mem_digitsOf (n := n) (h ▸ List.mem_cons_self)) (by decide)

theorem integerText_ne_empty (n : Int) : integerText n ≠ "" := by
  intro hempty
  have hlist := congrArg String.toList hempty
  rcases lt_or_ge n 0 with hn | hn
  · rw [toList_integerText_of_neg hn] at hlist
    cases hlist
  · rw [toList_integerText hn] at hlist
    exact digitsOf_ne_nil n hlist

theorem integerText_injective : Function.Injective integerText := by
  intro n m h
  have hlist := congrArg String.toList h
  rcases lt_or_ge n 0 with hn | hn <;> rcases lt_or_ge m 0 with hm | hm
  · rw [toList_integerText_of_neg hn, toList_integerText_of_neg hm] at hlist
    have habs := natAbs_eq_of_digitsOf_eq (List.cons.inj hlist).2
    omega
  · rw [toList_integerText_of_neg hn, toList_integerText hm] at hlist
    exact absurd hlist.symm (digitsOf_ne_minus _ _)
  · rw [toList_integerText hn, toList_integerText_of_neg hm] at hlist
    exact absurd hlist (digitsOf_ne_minus _ _)
  · rw [toList_integerText hn, toList_integerText hm] at hlist
    have habs := natAbs_eq_of_digitsOf_eq hlist
    omega

theorem writeInteger_bind_eq_ok {α : Type} {n : Int} {f : String → Except Fault α} {a : α}
    (h : writeInteger n >>= f = .ok a) : f (integerText n) = .ok a := by
  unfold writeInteger at h
  split at h
  · exact h
  · cases h

/-- A number that a numeral within the limit can spell. -/
def IsNumber (n : Int) : Prop := 0 ≤ n ∧ n < 10 ^ Fault.digitLimit

theorem IsNumber.length_digitsOf_le {n : Int} (h : IsNumber n) :
    (digitsOf n).length ≤ Fault.digitLimit := by
  apply (Nat.length_toDigits_le_iff (by decide) (by decide)).mpr
  have hlt : (n.natAbs : Int) < (10 ^ Fault.digitLimit : Nat) := by
    rw [Int.natAbs_of_nonneg h.1]
    exact_mod_cast h.2
  exact Int.ofNat_lt.mp hlt

/-- The value of a numeral within the limit is a number that such a numeral can spell. -/
theorem isNumber_decimalValue {digits : List Char} (h : digits.length ≤ Fault.digitLimit) :
    IsNumber (decimalValue digits) := by
  have hlt : decimalValue digits < 10 ^ Fault.digitLimit :=
    (decimalValue_lt digits).trans_le (Nat.pow_le_pow_right (by decide) h)
  exact ⟨Int.natCast_nonneg _, by exact_mod_cast hlt⟩

/-- A numeral within the limit spells an integer that may be written, and so it does with a sign. -/
theorem isWritable_numeralValue {digits : List Char} (h : digits.length ≤ Fault.digitLimit)
    (negative : Bool) :
    isWritable (if negative then -(numeralValue digits : Int) else numeralValue digits) = true := by
  have habs : (if negative then -(numeralValue digits : Int) else numeralValue digits).natAbs =
      decimalValue digits := by
    rw [numeralValue_eq]
    cases negative
    · exact Int.natAbs_natCast _
    · exact (Int.natAbs_neg _).trans (Int.natAbs_natCast _)
  rw [isWritable, habs]
  exact decide_eq_true (decimalValue_lt_of_length_le h)

end LabelPress.Number
