import LabelPress.Text.Base64
import Mathlib.Logic.Basic

/-!
# Base 64 is read back

A group of four characters gives back the bytes that it was written for, so no two texts of bytes
have the same characters.
-/

namespace LabelPress.Text

theorem base64Value?_base64Char {n : Nat} (h : n < 64) : base64Value? (base64Char n) = some n := by
  revert n
  decide

theorem base64Char_ne_equals {n : Nat} (h : n < 64) : base64Char n ≠ '=' := by
  revert n
  decide

/-- A full group is read as three bytes, whatever follows it. -/
theorem ofBase64?_group {a b c d : Nat} (ha : a < 64) (hb : b < 64) (hc : c < 64) (hd : d < 64)
    (rest : List Char) :
    ofBase64? (base64Char a :: base64Char b :: base64Char c :: base64Char d :: rest) = do
      let bytes ← ofBase64? rest
      return .ofNat (a * 4 + b / 16) :: .ofNat (b % 16 * 16 + c / 4) :: .ofNat (c % 4 * 64 + d)
        :: bytes := by
  rw [ofBase64?]
  · simp only [base64Value?_base64Char, ha, hb, hc, hd, Option.bind_eq_bind, Option.bind_some]
  · exact fun h _ => absurd h (base64Char_ne_equals hc)
  · exact fun h => absurd h (base64Char_ne_equals hd)

theorem ofNat_eq_of_toNat {n : Nat} {a : UInt8} (h : n = a.toNat) : UInt8.ofNat n = a := by
  rw [h, UInt8.ofNat_toNat]

theorem ofBase64?_base64 (bytes : List UInt8) : ofBase64? (base64 bytes) = some bytes := by
  induction bytes using base64.induct with
  | case1 => rfl
  | case2 a =>
      have ha : a.toNat < 256 := a.toNat_lt
      have hread : ofBase64? (base64 [a]) =
          some [.ofNat (a.toNat / 4 * 4 + a.toNat % 4 * 16 / 16)] := by
        rw [base64, ofBase64?, base64Value?_base64Char (by omega),
          base64Value?_base64Char (by omega)]
        rfl
      rw [hread, ofNat_eq_of_toNat (a := a) (by omega)]
  | case3 a b =>
      have ha : a.toNat < 256 := a.toNat_lt
      have hb : b.toNat < 256 := b.toNat_lt
      have hread : ofBase64? (base64 [a, b]) =
          some [.ofNat (a.toNat / 4 * 4 + (a.toNat % 4 * 16 + b.toNat / 16) / 16),
            .ofNat ((a.toNat % 4 * 16 + b.toNat / 16) % 16 * 16 + b.toNat % 16 * 4 / 4)] := by
        rw [base64, ofBase64?, base64Value?_base64Char (by omega),
          base64Value?_base64Char (by omega), base64Value?_base64Char (by omega)]
        · rfl
        · exact fun h => absurd h (base64Char_ne_equals (by omega))
      rw [hread, ofNat_eq_of_toNat (a := a) (by omega), ofNat_eq_of_toNat (a := b) (by omega)]
  | case4 a b c rest ih =>
      have ha : a.toNat < 256 := a.toNat_lt
      have hb : b.toNat < 256 := b.toNat_lt
      have hc : c.toNat < 256 := c.toNat_lt
      rw [base64, ofBase64?_group (by omega) (by omega) (by omega) (by omega), ih,
        ofNat_eq_of_toNat (a := a) (by omega), ofNat_eq_of_toNat (a := b) (by omega),
        ofNat_eq_of_toNat (a := c) (by omega)]
      rfl

theorem base64_injective : Function.Injective base64 := by
  intro bytes bytes' h
  apply Option.some.inj
  rw [← ofBase64?_base64 bytes, ← ofBase64?_base64 bytes', h]

/-- Nothing but the alphabet and the sign that fills up a group is written. -/
theorem eq_equals_or_of_mem_base64 {bytes : List UInt8} {x : Char} (h : x ∈ base64 bytes) :
    x = '=' ∨ ∃ n, x = base64Char n := by
  induction bytes using base64.induct with
  | case1 => exact absurd h List.not_mem_nil
  | case2 a =>
      simp only [base64, List.mem_cons, List.not_mem_nil, or_false] at h
      rcases h with rfl | rfl | rfl | rfl
      · exact .inr ⟨_, rfl⟩
      · exact .inr ⟨_, rfl⟩
      · exact .inl rfl
      · exact .inl rfl
  | case3 a b =>
      simp only [base64, List.mem_cons, List.not_mem_nil, or_false] at h
      rcases h with h | h | h | h
      · exact .inr ⟨_, h⟩
      · exact .inr ⟨_, h⟩
      · exact .inr ⟨_, h⟩
      · exact .inl h
  | case4 a b c rest ih =>
      simp only [base64, List.mem_cons] at h
      rcases h with h | h | h | h | h
      · exact .inr ⟨_, h⟩
      · exact .inr ⟨_, h⟩
      · exact .inr ⟨_, h⟩
      · exact .inr ⟨_, h⟩
      · exact ih h

theorem isAlphanum_base64Char (n : Nat) :
    (base64Char n).isAlphanum = true ∨ base64Char n = '+' ∨ base64Char n = '/' := by
  by_cases hn : n < 62
  · left
    revert n
    decide
  · right
    by_cases hn' : n = 62
    · left
      rw [hn']
      rfl
    · right
      rw [base64Char, if_neg (by omega), if_neg (by omega), if_neg hn, if_neg hn']

end LabelPress.Text
