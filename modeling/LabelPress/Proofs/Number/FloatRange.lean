import LabelPress.Number.Binary64
import Mathlib.Algebra.Order.Field.Power
import Mathlib.Data.Nat.Cast.Order.Field
import Mathlib.Data.Rat.Cast.Order
import Mathlib.Tactic.Linarith
import Mathlib.Tactic.NormNum
import Mathlib.Tactic.Positivity

/-!
# The range of floating-point numbers

A quotient is rounded to an infinity exactly if it lies half a step or more beyond the greatest
finite number, and every finite result stays below that bound.
-/

namespace LabelPress.Number

/-! ## Rounding -/

theorem roundEven_le {num den k : Nat} (hden : 0 < den) (h : num ≤ k * den) :
    roundEven num den ≤ k := by
  have hnear := (roundEven_near num den hden).2
  by_contra hlt
  have hmul : (k + 1) * den ≤ roundEven num den * den :=
    Nat.mul_le_mul_right den (Nat.lt_of_not_le hlt)
  have hexpand : (k + 1) * den = k * den + den := Nat.succ_mul k den
  have htwo : 2 * roundEven num den * den = 2 * (roundEven num den * den) := Nat.mul_assoc ..
  omega

/-- A quotient half way from an odd integer to the next one, or nearer to that, is rounded up. -/
theorem roundEven_eq_succ {num den n : Nat} (hn : n % 2 = 1) (hhalf : (2 * n + 1) * den ≤ 2 * num)
    (hlt : num < (n + 1) * den) : roundEven num den = n + 1 := by
  have hexpand : (n + 1) * den = n * den + den := Nat.succ_mul n den
  have htwo : (2 * n + 1) * den = 2 * (n * den) + den := by rw [Nat.succ_mul, Nat.mul_assoc]
  have hdiv : num / den = n := by
    apply Nat.div_eq_of_lt_le
    · omega
    · exact hlt
  have hmod : n * den + num % den = num := by
    rw [← hdiv, Nat.mul_comm]
    exact Nat.div_add_mod num den
  simp only [roundEven, hdiv]
  rw [if_pos]
  omega

namespace Binary64

/-! ## Powers of two -/

theorem two_zpow (e : Int) :
    (2 : ℚ) ^ e = (Nat.pow 2 e.toNat : Nat) / (Nat.pow 2 (-e).toNat : Nat) := by
  rcases le_total 0 e with he | he
  · obtain ⟨k, rfl⟩ := Int.eq_ofNat_of_zero_le he
    simp
  · obtain ⟨k, hk⟩ := Int.eq_ofNat_of_zero_le (Int.neg_nonneg.mpr he)
    obtain rfl : e = -(k : Int) := by omega
    simp

/-- A quotient compared in steps of a power of two. -/
theorem scaled_lt_iff {num den : Nat} (hden : 0 < den) (e : Int) (k : Nat) :
    num * Nat.pow 2 (-e).toNat < k * (den * Nat.pow 2 e.toNat) ↔ (num / den : ℚ) < k * 2 ^ e := by
  have hpos (n : Nat) : (0 : ℚ) < (Nat.pow 2 n : Nat) := by
    exact_mod_cast Nat.pow_pos (by decide : 0 < 2)
  rw [two_zpow, mul_div_assoc', div_lt_div_iff₀ (by exact_mod_cast hden) (hpos _),
    mul_assoc (k : ℚ), mul_comm _ (den : ℚ)]
  exact_mod_cast Iff.rfl

theorem scaled_lt_one_iff {num den : Nat} (hden : 0 < den) (e : Int) :
    num * Nat.pow 2 (-e).toNat < den * Nat.pow 2 e.toNat ↔ (num / den : ℚ) < 2 ^ e := by
  simpa using scaled_lt_iff hden e 1

/-- The binary logarithm of a quotient is that of the power of two at or below it. -/
theorem log2Ratio_spec {num den : Nat} (hnum : 0 < num) (hden : 0 < den) :
    (2 : ℚ) ^ log2Ratio num den ≤ num / den ∧ (num / den : ℚ) < 2 ^ (log2Ratio num den + 1) := by
  have hd : (0 : ℚ) < den := by exact_mod_cast hden
  have hnum₁ : (2 : ℚ) ^ (num.log2 : Int) ≤ num := by
    exact_mod_cast Nat.log2_self_le hnum.ne'
  have hnum₂ : (num : ℚ) < 2 ^ ((num.log2 : Int) + 1) := by
    exact_mod_cast @Nat.lt_log2_self num
  have hden₁ : (2 : ℚ) ^ (den.log2 : Int) ≤ den := by
    exact_mod_cast Nat.log2_self_le hden.ne'
  have hden₂ : (den : ℚ) < 2 ^ ((den.log2 : Int) + 1) := by
    exact_mod_cast @Nat.lt_log2_self den
  have hupper : (num / den : ℚ) < 2 ^ ((num.log2 : Int) - den.log2 + 1) := by
    rw [div_lt_iff₀ hd]
    calc
      (num : ℚ) < 2 ^ ((num.log2 : Int) + 1) := hnum₂
      _ = 2 ^ ((num.log2 : Int) - den.log2 + 1) * 2 ^ (den.log2 : Int) := by
        rw [← zpow_add₀ two_ne_zero]
        congr 1
        omega
      _ ≤ 2 ^ ((num.log2 : Int) - den.log2 + 1) * den := by gcongr
  have hlower : (2 : ℚ) ^ ((num.log2 : Int) - den.log2 - 1) ≤ num / den := by
    rw [le_div_iff₀ hd]
    calc
      (2 : ℚ) ^ ((num.log2 : Int) - den.log2 - 1) * den
          ≤ 2 ^ ((num.log2 : Int) - den.log2 - 1) * 2 ^ ((den.log2 : Int) + 1) := by gcongr
      _ = 2 ^ (num.log2 : Int) := by
        rw [← zpow_add₀ two_ne_zero]
        congr 1
        omega
      _ ≤ num := hnum₁
  rw [log2Ratio]
  split
  · next hlt =>
      have hbelow := (scaled_lt_one_iff hden _).mp hlt
      exact ⟨hlower, by simpa using hbelow⟩
  · next hge =>
      rw [scaled_lt_one_iff hden, not_lt] at hge
      exact ⟨hge, hupper⟩

/-! ## Rounding to a number -/

/-- The least magnitude that is rounded to an infinity: half a step beyond the greatest finite
number. -/
def overflow : ℚ := (2 ^ 53 - 1 / 2) * 2 ^ maxExponent

/-- A finite number with a significand and an exponent in range. -/
def IsReal (x : Binary64) : Prop :=
  ∃ s m e, x = finite s m e ∧ m < 2 ^ 53 ∧ e ≤ maxExponent

/-- The exponent of the last bit that a quotient keeps. -/
def lastExponent (num den : Nat) : Int := max (log2Ratio num den - 52) minExponent

/-- The significand that a quotient is rounded to, which may take one bit too many. -/
def roundedSignificand (num den : Nat) : Nat :=
  roundEven (num * Nat.pow 2 (-lastExponent num den).toNat)
    (den * Nat.pow 2 (lastExponent num den).toNat)

theorem ofRatio_eq (s : Bool) {num den : Nat} (hnum : num ≠ 0) :
    ofRatio s num den =
      if roundedSignificand num den = 2 ^ 53 then
        if maxExponent < lastExponent num den + 1 then infinite s
        else finite s (2 ^ 52) (lastExponent num den + 1)
      else if maxExponent < lastExponent num den then infinite s
      else finite s (roundedSignificand num den) (lastExponent num den) := by
  rw [ofRatio, if_neg hnum]
  let kept : Nat × Int :=
    if roundedSignificand num den = 2 ^ 53 then (2 ^ 52, lastExponent num den + 1)
    else (roundedSignificand num den, lastExponent num den)
  change (if maxExponent < kept.2 then infinite s else finite s kept.1 kept.2) = _
  unfold kept
  by_cases hq : roundedSignificand num den = 2 ^ 53
  · rw [if_pos hq, if_pos hq]
  · rw [if_neg hq, if_neg hq]

section Quotient

variable {num den : Nat}

theorem step_pos (hden : 0 < den) (e : Int) : 0 < den * Nat.pow 2 e.toNat :=
  Nat.mul_pos hden (Nat.pow_pos (by decide))

theorem lt_of_lastExponent (hnum : 0 < num) (hden : 0 < den) :
    (num / den : ℚ) < 2 ^ 53 * 2 ^ lastExponent num den := by
  have hlast : log2Ratio num den + 1 ≤ 53 + lastExponent num den := by
    have := le_max_left (log2Ratio num den - 52) minExponent
    rw [lastExponent]
    omega
  calc
    (num / den : ℚ) < 2 ^ (log2Ratio num den + 1) := (log2Ratio_spec hnum hden).2
    _ ≤ 2 ^ (53 + lastExponent num den) := zpow_le_zpow_right₀ one_le_two hlast
    _ = 2 ^ 53 * 2 ^ lastExponent num den := by
      rw [zpow_add₀ two_ne_zero]
      norm_cast

theorem le_of_lastExponent (hnum : 0 < num) (hden : 0 < den)
    (hlast : minExponent < lastExponent num den) :
    2 ^ 52 * 2 ^ lastExponent num den ≤ (num / den : ℚ) := by
  have hlog : log2Ratio num den = 52 + lastExponent num den := by
    rw [lastExponent] at hlast ⊢
    omega
  calc
    (2 : ℚ) ^ 52 * 2 ^ lastExponent num den = 2 ^ (52 + lastExponent num den) := by
      rw [zpow_add₀ two_ne_zero]
      norm_cast
    _ = 2 ^ log2Ratio num den := by rw [hlog]
    _ ≤ num / den := (log2Ratio_spec hnum hden).1

theorem roundedSignificand_le (hnum : 0 < num) (hden : 0 < den) :
    roundedSignificand num den ≤ 2 ^ 53 := by
  apply roundEven_le (step_pos hden _)
  apply Nat.le_of_lt
  rw [scaled_lt_iff hden]
  exact_mod_cast lt_of_lastExponent hnum hden

/-- The significand takes one bit too many exactly for the quotients within half a step of that. -/
theorem roundedSignificand_eq_iff (hnum : 0 < num) (hden : 0 < den) :
    roundedSignificand num den = 2 ^ 53 ↔
      (2 ^ 53 - 1 / 2) * 2 ^ lastExponent num den ≤ (num / den : ℚ) := by
  let e := lastExponent num den
  let scaled := num * Nat.pow 2 (-e).toNat
  let step := den * Nat.pow 2 e.toNat
  have hscaled : scaled < 2 ^ 53 * step := by
    rw [scaled_lt_iff hden]
    exact_mod_cast lt_of_lastExponent hnum hden
  have hhalf : (2 * (2 ^ 53 - 1) + 1) * step ≤ 2 * scaled ↔
      (2 ^ 53 - 1 / 2) * 2 ^ e ≤ (num / den : ℚ) := by
    have htwice := @scaled_lt_iff (2 * num) den hden e (2 * (2 ^ 53 - 1) + 1)
    rw [Nat.mul_assoc] at htwice
    rw [← not_lt, htwice, not_lt, Nat.cast_mul, mul_div_assoc]
    constructor <;> intro h <;> norm_num at h ⊢ <;> linarith
  rw [← hhalf]
  constructor
  · intro hq
    have hnear := (roundEven_near scaled step (step_pos hden e)).2
    have hround : roundEven scaled step = 2 ^ 53 := hq
    rw [hround] at hnear
    omega
  · intro h
    exact roundEven_eq_succ (by decide) h hscaled

end Quotient

/-- A quotient within the range is rounded to a number, and any other to an infinity. -/
theorem ofRatio_cases (s : Bool) (num : Nat) {den : Nat} (hden : 0 < den) :
    overflow ≤ (num / den : ℚ) ∧ ofRatio s num den = infinite s ∨
      (num / den : ℚ) < overflow ∧ IsReal (ofRatio s num den) := by
  rcases Nat.eq_zero_or_pos num with rfl | hnum
  · refine Or.inr ⟨?_, s, 0, minExponent, rfl, by decide, by decide⟩
    rw [Nat.cast_zero, zero_div, overflow]
    positivity
  have hq := roundedSignificand_le hnum hden
  have hbound := roundedSignificand_eq_iff hnum hden
  rw [ofRatio_eq s hnum.ne']
  rcases lt_trichotomy (lastExponent num den) maxExponent with hlast | hlast | hlast
  · -- the last bit is below the greatest one, so even one bit too many stays in range
    have hnext : ¬ maxExponent < lastExponent num den + 1 := by omega
    have hpower : (2 : ℚ) ^ lastExponent num den ≤ 2 ^ (maxExponent - 1) :=
      zpow_le_zpow_right₀ one_le_two (by omega)
    have hless := lt_of_lastExponent hnum hden
    refine Or.inr ⟨?_, ?_⟩
    · rw [zpow_sub_one₀ two_ne_zero] at hpower
      rw [overflow]
      have hpos : (0 : ℚ) < 2 ^ maxExponent := zpow_pos two_pos _
      linarith
    · rw [if_neg hnext, if_neg hlast.not_gt]
      split
      · exact ⟨s, 2 ^ 52, _, rfl, by decide, not_lt.mp hnext⟩
      · next hne => exact ⟨s, _, _, rfl, lt_of_le_of_ne hq hne, hlast.le⟩
  · rw [hlast] at hbound
    by_cases htop : roundedSignificand num den = 2 ^ 53
    · refine Or.inl ⟨hbound.mp htop, ?_⟩
      rw [if_pos htop, hlast, if_pos (by decide)]
    · refine Or.inr ⟨not_le.mp fun h => htop (hbound.mpr h), ?_⟩
      rw [if_neg htop, hlast, if_neg (by decide)]
      exact ⟨s, _, _, rfl, lt_of_le_of_ne hq htop, le_rfl⟩
  · have hmin : minExponent < lastExponent num den := by
      have : minExponent < maxExponent := by decide
      omega
    have hpower : (2 : ℚ) ^ (maxExponent + 1) ≤ 2 ^ lastExponent num den :=
      zpow_le_zpow_right₀ one_le_two (by omega)
    have hmore := le_of_lastExponent hnum hden hmin
    refine Or.inl ⟨?_, ?_⟩
    · rw [zpow_add_one₀ two_ne_zero] at hpower
      rw [overflow]
      have hpos : (0 : ℚ) < 2 ^ maxExponent := zpow_pos two_pos _
      linarith
    · have hnext : maxExponent < lastExponent num den + 1 := by omega
      rw [if_pos hnext, if_pos hlast, ite_self]

/-! ## Numbers and their magnitudes -/

/-- The magnitude of a finite number, nothing for the others. -/
def magnitude : Binary64 → ℚ
  | finite _ m e => m * 2 ^ e
  | _ => 0

theorem numerator_div_denominator (m : Nat) (e : Int) :
    (numerator m e : ℚ) / denominator e = m * 2 ^ e := by
  rw [numerator, denominator, two_zpow, Nat.cast_mul, mul_div_assoc]

theorem denominator_pos (e : Int) : 0 < denominator e := Nat.pow_pos (by decide)

/-- The magnitude of a finite number is at most that of the greatest one. -/
theorem IsReal.magnitude_lt {x : Binary64} (h : IsReal x) : x.magnitude < overflow := by
  obtain ⟨s, m, e, rfl, hm, he⟩ := h
  have hm' : (m : ℚ) ≤ 2 ^ 53 - 1 := by
    have : m + 1 ≤ 2 ^ 53 := hm
    have hcast : (m : ℚ) + 1 ≤ 2 ^ 53 := by exact_mod_cast this
    linarith
  have hpower : (2 : ℚ) ^ e ≤ 2 ^ maxExponent := zpow_le_zpow_right₀ one_le_two he
  have hpos : (0 : ℚ) < 2 ^ maxExponent := zpow_pos two_pos _
  calc
    (m : ℚ) * 2 ^ e ≤ (2 ^ 53 - 1) * 2 ^ maxExponent :=
      mul_le_mul hm' hpower (zpow_nonneg two_pos.le e) (by norm_num)
    _ < overflow := by
      rw [overflow]
      linarith

theorem magnitude_nonneg (x : Binary64) : 0 ≤ x.magnitude := by
  cases x with
  | finite s m e => exact mul_nonneg (Nat.cast_nonneg m) (zpow_nonneg two_pos.le e)
  | _ => exact le_rfl

/-! ## Operations -/

/-- Integers below the bound become numbers, and no others. -/
theorem ofInt_cases (n : Int) :
    overflow ≤ (n.natAbs : ℚ) ∧ ofInt n = .error .integerBeyondFloat ∨
      (n.natAbs : ℚ) < overflow ∧ ∃ x, ofInt n = .ok x ∧ ofSigned n 1 = x ∧ IsReal x := by
  have hcases := ofRatio_cases (decide (n < 0)) n.natAbs (by decide : 0 < 1)
  rw [Nat.cast_one, div_one, ← ofSigned] at hcases
  rcases hcases with ⟨hn, hx⟩ | ⟨hn, hreal⟩
  · exact Or.inl ⟨hn, by rw [ofInt, hx]⟩
  · refine Or.inr ⟨hn, ofSigned n 1, ?_, rfl, hreal⟩
    obtain ⟨s, m, e, hx, -, -⟩ := hreal
    rw [ofInt, hx]

/-- A product of numbers is a number exactly if its magnitude is below the bound. -/
theorem mul_cases {x y : Binary64} (hx : IsReal x) (hy : IsReal y) :
    overflow ≤ x.magnitude * y.magnitude ∧ (∃ s, x.mul y = infinite s) ∨
      x.magnitude * y.magnitude < overflow ∧ IsReal (x.mul y) := by
  obtain ⟨s, m, e, rfl, -, -⟩ := hx
  obtain ⟨t, n, f, rfl, -, -⟩ := hy
  have hden : 0 < denominator e * denominator f :=
    Nat.mul_pos (denominator_pos e) (denominator_pos f)
  have hproduct : ((numerator m e * numerator n f : Nat) : ℚ) /
      (denominator e * denominator f : Nat) = (m * 2 ^ e) * (n * 2 ^ f) := by
    rw [Nat.cast_mul, Nat.cast_mul, mul_div_mul_comm, numerator_div_denominator,
      numerator_div_denominator]
  have hcases := ofRatio_cases (s != t) (numerator m e * numerator n f) hden
  rw [hproduct] at hcases
  exact hcases.imp (And.imp_right fun h => ⟨_, h⟩) id

/-- A number scaled down is a number. -/
theorem IsReal.mul {x y : Binary64} (hx : IsReal x) (hy : IsReal y) (hone : y.magnitude ≤ 1) :
    IsReal (x.mul y) := by
  rcases mul_cases hx hy with ⟨hover, -⟩ | ⟨-, hreal⟩
  · have hle : x.magnitude * y.magnitude ≤ x.magnitude :=
      mul_le_of_le_one_right x.magnitude_nonneg hone
    exact absurd (hover.trans hle) (not_le.mpr hx.magnitude_lt)
  · exact hreal

/-- A number divided by one that is not below one is a number. -/
theorem IsReal.div {x y : Binary64} (hx : IsReal x) (hy : IsReal y) (hone : 1 ≤ y.magnitude) :
    IsReal (x.div y) := by
  have hlt := hx.magnitude_lt
  obtain ⟨s, m, e, rfl, -, -⟩ := hx
  obtain ⟨t, n, f, rfl, -, -⟩ := hy
  have hn : n ≠ 0 := by
    rintro rfl
    norm_num [magnitude] at hone
  have hden : 0 < denominator e * numerator n f :=
    Nat.mul_pos (denominator_pos e) (Nat.mul_pos (Nat.pos_of_ne_zero hn) (Nat.pow_pos (by decide)))
  have hquotient : ((numerator m e * denominator f : Nat) : ℚ) /
      (denominator e * numerator n f : Nat) = (m * 2 ^ e) / (n * 2 ^ f) := by
    rw [Nat.cast_mul, Nat.cast_mul, mul_div_mul_comm, numerator_div_denominator,
      ← numerator_div_denominator n f, div_div_eq_mul_div, mul_div_assoc]
  have hcases := ofRatio_cases (s != t) (numerator m e * denominator f) hden
  rw [hquotient] at hcases
  have hle : (m * 2 ^ e : ℚ) / (n * 2 ^ f) ≤ m * 2 ^ e :=
    div_le_self (magnitude_nonneg (finite s m e)) hone
  rw [Binary64.div, if_neg hn]
  rcases hcases with ⟨hover, -⟩ | ⟨-, hreal⟩
  · exact absurd (hover.trans hle) (not_le.mpr hlt)
  · exact hreal

/-- Every number can be made an integer. -/
theorem IsReal.toIntBy {x : Binary64} (hx : IsReal x) (round : Bool → Nat → Nat → Nat) :
    ∃ n, x.toIntBy round = .ok n := by
  obtain ⟨s, m, e, rfl, -, -⟩ := hx
  exact ⟨_, rfl⟩

theorem two_pow_lt_overflow : (2 : ℚ) ^ 53 < overflow := by
  have hpower : (2 : ℚ) ^ (1 : Int) ≤ 2 ^ maxExponent := zpow_le_zpow_right₀ one_le_two (by decide)
  rw [zpow_one] at hpower
  rw [overflow]
  linarith

theorem overflow_le : overflow ≤ 2 ^ 1024 := by
  have hpos : (0 : ℚ) < 2 ^ maxExponent := zpow_pos two_pos _
  calc
    overflow ≤ 2 ^ 53 * 2 ^ maxExponent := by
      rw [overflow]
      linarith
    _ = 2 ^ 53 * 2 ^ 971 := by rw [maxExponent, zpow_ofNat]
    _ = 2 ^ 1024 := (pow_add 2 53 971).symm

/-- The integer nearest to a number becomes a number again. -/
theorem IsReal.nearest {x : Binary64} (hx : IsReal x) :
    ∃ n, x.nearest = .ok n ∧ (n.natAbs : ℚ) < overflow := by
  have hmagnitude := hx.magnitude_lt
  obtain ⟨s, m, e, rfl, hm, -⟩ := hx
  let rounded := roundEven (numerator m e) (denominator e)
  refine ⟨if s then -(rounded : Int) else rounded, rfl, ?_⟩
  have habs : (if s then -(rounded : Int) else rounded).natAbs = rounded := by
    cases s <;> simp
  rw [habs]
  rcases le_total 0 e with he | he
  · -- without a fraction nothing is rounded
    have hden : denominator e = 1 := by
      rw [denominator, Int.toNat_of_nonpos (by omega)]
    have hrounded : rounded = numerator m e := by
      change roundEven _ _ = _
      rw [hden, roundEven_one]
    have hvalue := numerator_div_denominator m e
    rw [hden, Nat.cast_one, div_one] at hvalue
    rw [hrounded, hvalue]
    exact hmagnitude
  · have hnum : numerator m e = m := by
      rw [numerator, Int.toNat_of_nonpos he]
      exact Nat.mul_one m
    have hrounded : rounded ≤ m := by
      apply roundEven_le (denominator_pos e)
      rw [hnum]
      exact Nat.le_mul_of_pos_right m (denominator_pos e)
    have hlt : (rounded : ℚ) < 2 ^ 53 := by exact_mod_cast hrounded.trans_lt hm
    exact hlt.trans two_pow_lt_overflow

/-- The whole part of a number is as far below the bound as the number. -/
theorem IsReal.truncate_lt {x : Binary64} (hx : IsReal x) {n : Int} (h : x.truncate = .ok n) :
    (n.natAbs : ℚ) < overflow := by
  have hmagnitude := hx.magnitude_lt
  obtain ⟨s, m, e, rfl, -, -⟩ := hx
  obtain rfl := Except.ok.inj h
  have habs : (if s then -((numerator m e / denominator e : Nat) : Int)
      else (numerator m e / denominator e : Nat)).natAbs = numerator m e / denominator e := by
    cases s
    · exact Int.natAbs_natCast _
    · exact (Int.natAbs_neg _).trans (Int.natAbs_natCast _)
  rw [habs]
  calc
    ((numerator m e / denominator e : Nat) : ℚ) ≤ numerator m e / denominator e := Nat.cast_div_le
    _ = m * 2 ^ e := numerator_div_denominator m e
    _ < overflow := hmagnitude

/-- What is finite is in range. -/
def InRange (x : Binary64) : Prop := ∀ s m e, x = finite s m e → IsReal x

theorem inRange_infinite (s : Bool) : InRange (infinite s) := nofun

theorem inRange_nan : InRange nan := nofun

theorem inRange_zero (s : Bool) : InRange (zero s) :=
  fun _ _ _ _ => ⟨s, 0, minExponent, rfl, by decide, by decide⟩

/-- What a quotient is rounded to is in range. -/
theorem inRange_ofRatio (s : Bool) (num : Nat) {den : Nat} (hden : 0 < den) :
    InRange (ofRatio s num den) := by
  rcases ofRatio_cases s num hden with ⟨-, hinfinite⟩ | ⟨-, hreal⟩
  · rw [hinfinite]
    exact inRange_infinite s
  · exact fun _ _ _ _ => hreal

end Binary64

end LabelPress.Number
